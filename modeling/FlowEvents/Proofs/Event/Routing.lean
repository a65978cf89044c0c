import FlowEvents.Proofs.Event.Writes
import FlowEvents.Proofs.Identity.Names

/-! # Where an event is routed

Who makes an event chooses its tag, and who marks it as good gives that choice up: the tag is then
made of the source.  `Routed` says so of an event, and no edit breaks it but one that writes to a
field directly.  The names in a source are free, so it takes an argument that the tags of good
events are told apart by their sources and are never internal: a tag starts with the name of a kind,
which has no dot in it and is not the mark of internal events.
-/

namespace FlowEvents

theorem Node.goodTag_inj {m n : Node} : m.goodTag = n.goodTag ↔ m = n := by
  rw [goodTag, goodTag, String.append_left_inj, text_inj]

namespace Event

/-- The edit is no direct write to a field. -/
def Edit.IsProper : Edit → Prop
  | .setTag _ | .setId _ | .setGood _ | .setSource _ => False
  | _ => True

/-- An event that was made for a source with a tag is routed by the source if it is good, and else
by the tag. -/
structure Routed (source : Node) (tag : String) (e : Event) : Prop where
  sourced : e.source = source
  tagged : e.tag = if e.good then source.goodTag else tag

variable {e : Event} {source : Node} {tag : String}

/-! ## Internal and good events -/

theorem isPrefixOf_mark_iff :
    internalMark.toList.isPrefixOf e.tag.toList = true ↔ ∃ rest, e.tag = "sys." ++ rest := by
  rw [List.isPrefixOf_iff_prefix]
  constructor
  · rintro ⟨rest, hrest⟩
    refine ⟨String.ofList rest, String.toList_injective ?_⟩
    rw [← hrest]
    simp [internalMark]
  · rintro ⟨rest, htag⟩
    refine ⟨rest.toList, ?_⟩
    rw [htag]
    simp [internalMark]

/-- The mark takes four bytes, so a tag that is not looked at does not carry it. -/
theorem isPrefixOf_mark_of_short (h : e.tag.utf8ByteSize < 3) :
    internalMark.toList.isPrefixOf e.tag.toList = false := by
  rw [← Bool.not_eq_true, isPrefixOf_mark_iff]
  rintro ⟨rest, htag⟩
  have hmark : "sys.".utf8ByteSize = 4 := by decide
  rw [htag, String.utf8ByteSize_append, hmark] at h
  omega

/-- The length of a tag decides nothing. -/
theorem isInternal_eq (e : Event) :
    e.isInternal = internalMark.toList.isPrefixOf e.tag.toList := by
  rw [isInternal]
  split
  next h => exact (isPrefixOf_mark_of_short h).symm
  next => rfl

theorem isInternal_iff : e.isInternal = true ↔ ∃ rest, e.tag = "sys." ++ rest := by
  rw [isInternal_eq, isPrefixOf_mark_iff]

/-- No kind is called as internal events are marked. -/
theorem isInternal_of_goodTag (h : e.tag = source.goodTag) : e.isInternal = false := by
  have htag : e.tag.toList =
      source.kind.name.toList ++ ('.' :: source.name.toList ++ ".good".toList) := by
    rw [h]
    simp [Node.goodTag, Node.text]
  rw [isInternal_eq, htag]
  cases source.kind <;> rfl

theorem Routed.isInternal_eq_false (h : e.Routed source tag) (hgood : e.good = true) :
    e.isInternal = false := by
  have htag : e.tag = source.goodTag := by
    rw [h.tagged, if_pos hgood]
  exact isInternal_of_goodTag htag

/-- To mark a good event as good changes nothing. -/
theorem Routed.markGood_eq (h : e.Routed source tag) (hgood : e.good = true) : e.markGood = e := by
  have htag : e.source.goodTag = e.tag := by
    rw [h.tagged, if_pos hgood, h.sourced]
  rw [markGood, htag, ← hgood]

/-! ## One edit -/

theorem withRun_eq (e : Event) (outcome : Except IdFault Run) :
    (e.withRun outcome).1 = { e with run := (e.withRun outcome).1.run } := by
  cases outcome <;> rfl

/-- A proper edit marks the event as good, or changes at most its run and its payload. -/
theorem apply_of_isProper {edit : Edit} (h : edit.IsProper) :
    edit = .markGood ∨ ∃ run payload, (e.apply edit).1 = { e with run, payload } := by
  cases edit with
  | markGood => exact .inl rfl
  | adopt offer => exact .inr ⟨_, _, e.withRun_eq _⟩
  | adoptText text => exact .inr ⟨_, _, e.withRun_eq _⟩
  | setTag | setId | setGood | setSource => cases h
  | attach | replacePayload | insert | remove | find | migrate => exact .inr ⟨_, _, rfl⟩

theorem Routed.apply (h : e.Routed source tag) {edit : Edit} (hedit : edit.IsProper) :
    (e.apply edit).1.Routed source tag := by
  rcases apply_of_isProper (e := e) hedit with rfl | ⟨run, payload, heq⟩
  · exact ⟨h.sourced, congrArg Node.goodTag h.sourced⟩
  · rw [heq]
    exact ⟨h.sourced, h.tagged⟩

theorem good_apply_iff {edit : Edit} (hedit : edit.IsProper) :
    (e.apply edit).1.good = true ↔ e.good = true ∨ edit = .markGood := by
  rcases apply_of_isProper (e := e) hedit with rfl | ⟨run, payload, heq⟩
  · exact iff_of_true rfl (.inr rfl)
  · rw [heq]
    constructor
    · exact .inl
    · rintro (hgood | rfl)
      · exact hgood
      · exact (congrArg Event.good heq).symm

/-! ## Any number of edits -/

theorem Routed.applyAll (h : e.Routed source tag) {edits : List Edit}
    (hedits : ∀ edit ∈ edits, edit.IsProper) : (e.applyAll edits).Routed source tag := by
  induction edits using List.reverseRecOn with
  | nil => exact h
  | append_singleton edits edit ih =>
      obtain ⟨hedits, hedit⟩ := List.forall_mem_append.mp hedits
      rw [applyAll_concat]
      exact (ih hedits).apply (hedit edit (List.mem_singleton_self edit))

/-- Nothing but the mark makes an event good, and nothing takes that back. -/
theorem good_applyAll_iff {edits : List Edit} (hedits : ∀ edit ∈ edits, edit.IsProper) :
    (e.applyAll edits).good = true ↔ e.good = true ∨ .markGood ∈ edits := by
  induction edits using List.reverseRecOn with
  | nil => simp [Event.applyAll]
  | append_singleton edits edit ih =>
      obtain ⟨hedits, hedit⟩ := List.forall_mem_append.mp hedits
      rw [applyAll_concat, good_apply_iff (hedit edit (List.mem_singleton_self edit)), ih hedits,
        List.mem_append, List.mem_singleton, or_assoc, eq_comm (a := edit)]

/-- An event as its producer hands it over: made with a tag for a source, then edited. -/
def made (run : Run) (source : Node) (tag : String) (edits : List Edit) : Event :=
  (unpublished run source tag).applyAll edits

theorem routed_made (run : Run) (source : Node) (tag : String) {edits : List Edit}
    (hedits : ∀ edit ∈ edits, edit.IsProper) : (made run source tag edits).Routed source tag := by
  have hnew : (unpublished run source tag).Routed source tag := ⟨rfl, rfl⟩
  exact hnew.applyAll hedits

theorem made_append (run : Run) (source : Node) (tag : String) (past rest : List Edit) :
    made run source tag (past ++ rest) = (made run source tag past).applyAll rest :=
  (unpublished run source tag).applyAll_append past rest

/-- Good events have the same tag just if they have the same source. -/
theorem Routed.tag_eq_tag_iff {e' : Event} {source' : Node} {tag' : String}
    (h : e.Routed source tag) (h' : e'.Routed source' tag') (hgood : e.good = true)
    (hgood' : e'.good = true) : e.tag = e'.tag ↔ e.source = e'.source := by
  rw [h.tagged, if_pos hgood, h'.tagged, if_pos hgood', Node.goodTag_inj, h.sourced, h'.sourced]

end Event

end FlowEvents
