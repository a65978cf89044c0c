import FlowEvents.Identity.Node
import FlowEvents.Identity.Run
import FlowEvents.Proofs.Identity.Canonical
import Std.Data.String.ToNat

/-! # Names that cannot be confused

A text form is glued together from free strings, and its separator may stand in the strings as well.
What a text stands for can be told all the same, because one of the separators is marked out: the
first dot, as no kind has one in its name; the last dash, as no number has one; and the last
underscore of a run, if the hosts have none.

An unassigned id shows nothing of its host, so all of these have one text.
-/

namespace FlowEvents

/-! ## Nodes -/

theorem NodeKind.name_injective : Function.Injective NodeKind.name := by
  intro k l h
  have hk := ofName?_name k
  rw [h, ofName?_name] at hk
  exact (Option.some.inj hk).symm

namespace Node

variable {m n : Node}

/-- The kind stands in front of the first dot. -/
theorem takeWhile_text (n : Node) :
    n.text.toList.takeWhile (· != '.') = n.kind.name.toList := by
  have hdot : ∀ c ∈ n.kind.name.toList, (c != '.') = true := by
    cases n.kind <;> simp [NodeKind.name]
  have htext : n.text.toList = n.kind.name.toList ++ '.' :: n.name.toList := by
    simp [text]
  rw [htext, List.takeWhile_append_of_pos hdot, List.takeWhile_cons_of_neg (by decide),
    List.append_nil]

theorem text_inj : m.text = n.text ↔ m = n := by
  constructor
  · intro heq
    have hkind : m.kind = n.kind := by
      have hfront := congrArg (fun s => s.toList.takeWhile (· != '.')) heq
      rw [takeWhile_text, takeWhile_text] at hfront
      exact NodeKind.name_injective (String.toList_injective hfront)
    rw [text, text, hkind, String.append_right_inj] at heq
    exact Node.ext hkind heq
  · exact congrArg text

end Node

/-! ## Flow versions -/

theorem FlowVersion.text_inj {f g : FlowVersion} : f.text = g.text ↔ f = g := by
  constructor
  · intro heq
    obtain ⟨hflow, hversion⟩ :=
      Text.glue_inj rfl (HostId.dash_not_mem_repr _) (HostId.dash_not_mem_repr _) heq
    exact FlowVersion.ext hflow (UInt32.toNat_inj.mp (Nat.repr_inj.mp hversion))
  · exact congrArg text

/-! ## Hosted ids -/

namespace HostId

variable {a b : HostId}

theorem text_eq_text_iff : a.text = b.text ↔ a = b ∨ a.number = 0 ∧ b.number = 0 := by
  constructor
  · intro heq
    by_cases ha : a.number = 0
    · refine .inr ⟨ha, ?_⟩
      by_contra hb
      rw [text_of_number_eq ha, text_of_number_ne hb] at heq
      exact ne_unassignedText _ _ heq.symm
    · have hb : b.number ≠ 0 := by
        intro hb
        rw [text_of_number_ne ha, text_of_number_eq hb] at heq
        exact ne_unassignedText _ _ heq
      rw [text_of_number_ne ha, text_of_number_ne hb] at heq
      obtain ⟨hhost, hnumber⟩ :=
        Text.glue_inj rfl (dash_not_mem_repr _) (dash_not_mem_repr _) heq
      exact .inl (HostId.ext hhost (UInt64.toNat_inj.mp (Nat.repr_inj.mp hnumber)))
  · rintro (rfl | ⟨ha, hb⟩)
    · rfl
    · rw [text_of_number_eq ha, text_of_number_eq hb]

/-- The only underscores of a text are those of the host. -/
theorem underscore_not_mem_text (hhost : '_' ∉ a.host.toList) : '_' ∉ a.text.toList := by
  by_cases ha : a.number = 0
  · rw [text_of_number_eq ha]
    decide
  · rw [text_of_number_ne ha]
    simp [hhost]

end HostId

/-! ## Runs -/

namespace Run

variable {a b : Run}

theorem text_eq_text_iff (ha : '_' ∉ a.origin.host.toList) (hb : '_' ∉ b.origin.host.toList) :
    a.text = b.text ↔
      a.flow = b.flow ∧ (a.origin = b.origin ∨ a.origin.number = 0 ∧ b.origin.number = 0) := by
  rw [← HostId.text_eq_text_iff, ← FlowVersion.text_inj]
  constructor
  · intro heq
    obtain ⟨hflow, horigin⟩ := Text.glue_inj rfl (HostId.underscore_not_mem_text ha)
      (HostId.underscore_not_mem_text hb) heq
    exact ⟨(String.append_right_inj _).mp hflow, horigin⟩
  · rintro ⟨hflow, horigin⟩
    rw [text, text, hflow, horigin]

end Run

/-- **Names are unambiguous.** Hosted ids have the same text just if they are equal or both
unassigned, flow versions and nodes just if they are equal, and runs, as long as no underscore is
in the names of the hosts that started them, just if they are of the same flow version and have the
same id or both none. -/
theorem names_unambiguous :
    (∀ a b : HostId, a.text = b.text ↔ a = b ∨ a.number = 0 ∧ b.number = 0) ∧
    (∀ f g : FlowVersion, f.text = g.text ↔ f = g) ∧
    (∀ m n : Node, m.text = n.text ↔ m = n) ∧
    ∀ a b : Run, '_' ∉ a.origin.host.toList → '_' ∉ b.origin.host.toList →
      (a.text = b.text ↔
        a.flow = b.flow ∧ (a.origin = b.origin ∨ a.adopted = false ∧ b.adopted = false)) := by
  refine ⟨fun _ _ => HostId.text_eq_text_iff, fun _ _ => FlowVersion.text_inj,
    fun _ _ => Node.text_inj, ?_⟩
  intro a b ha hb
  have hpending : ∀ r : Run, r.adopted = false ↔ r.origin.number = 0 := by
    intro r
    simp [Run.adopted, HostId.isAssigned]
  rw [Run.text_eq_text_iff ha hb, hpending, hpending]

/-- The name of the flow ends like the text of a run. -/
def glued : Run := ⟨⟨"a-1_b", 1⟩, ⟨"c", 2⟩, "c"⟩

def dashed : Run := ⟨⟨"a", 1⟩, ⟨"b-1-c", 2⟩, "c"⟩

/-- The texts of these runs are `runref_a-1_b-1_c-2` and `runref_a-1_b-1-c-2`. -/
theorem names_unambiguous_glued :
    '_' ∉ glued.origin.host.toList ∧ '_' ∉ dashed.origin.host.toList ∧
      glued.text ≠ dashed.text := by
  have hglued : '_' ∉ glued.origin.host.toList := by decide
  have hdashed : '_' ∉ dashed.origin.host.toList := by decide
  refine ⟨hglued, hdashed, fun heq => ?_⟩
  obtain ⟨hflow, -⟩ := (names_unambiguous.2.2.2 glued dashed hglued hdashed).mp heq
  exact absurd hflow (by decide)

/-- An underscore in the name of a host can make two runs look the same. -/
example : glued.text = Run.text ⟨⟨"a", 1⟩, ⟨"b-1_c", 2⟩, "c"⟩ := by
  cbv

end FlowEvents
