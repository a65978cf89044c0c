import FlowEvents.Proofs.Bus.Accounting
import FlowEvents.Proofs.Bus.Authors
import FlowEvents.Proofs.Event.Routing

/-! # Good events on the bus

A publish hands out copies of an event that differ from it in nothing but the id, so a good event is
still routed by its source when it is received, and the logging observer tells of it like of any
event that is not internal.
-/

namespace FlowEvents.Bus

open Event (Edit made)
open Log (Line)

namespace State

/-- What there is to know of an event that was made with a tag for a source and edited. -/
structure GoodBySource (run : Run) (source : Node) (tag : String) (edits : List Edit) : Prop where
  marked : (made run source tag edits).good = true ↔ .markGood ∈ edits
  /-- Once good, an event is good for good. -/
  kept : ∀ past rest, edits = past ++ rest → (made run source tag past).good = true →
    (made run source tag edits).good = true
  sourced : (made run source tag edits).source = source
  good : (made run source tag edits).good = true →
    (made run source tag edits).tag = source.kind.name ++ "." ++ source.name ++ ".good"
  other : (made run source tag edits).good = false → (made run source tag edits).tag = tag
  external : (made run source tag edits).good = true →
    (made run source tag edits).isInternal = false
  /-- To mark it as good once more changes nothing. -/
  again : (made run source tag edits).good = true →
    (made run source tag edits).apply .markGood = (made run source tag edits, .done)
  /-- Good events have the same tag just if they have the same source. -/
  apart : ∀ run' source' tag' edits', (∀ edit ∈ edits', edit.IsProper) →
    (made run source tag edits).good = true → (made run' source' tag' edits').good = true →
      ((made run source tag edits).tag = (made run' source' tag' edits').tag ↔
        (made run source tag edits).source = (made run' source' tag' edits').source)
  /-- Whoever is notified of it receives it as it is, but for the id. -/
  received : ∀ config home moves i t n,
    ((new config home).play moves).Notifies (made run source tag edits) i t n →
      ∃ id, n.publication.event = { made run source tag edits with id }
  /-- What the logging observer writes of it when it is good is of interest to everyone. -/
  level : ∀ config home moves i t n,
    ((new config home).play moves).Notifies (made run source tag edits) i t n →
      (made run source tag edits).good = true → n.observer = .logging →
        ∀ line ∈ ((new config home).play moves).linesBy i, line.level = .info
  /-- In the end that is one line. -/
  logged : ∀ config home moves i t n,
    ((new config home).play moves).Notifies (made run source tag edits) i t n →
      n.observer = .logging → t.control = .finished →
        ∃ line, ((new config home).play moves).linesBy i = [line] ∧
          Receives n.publication.event line

/-- **Good events are routed by their source.** Let an event be made with a tag for a source and be
edited in any way but by writing to its fields.  Then it has the tag it was made with until it is
marked as good, and from then on the tag of its source, which is no internal one and no other
source's; and so it has wherever it is received. -/
theorem good_by_source (run : Run) (source : Node) (tag : String) (edits : List Edit)
    (hedits : ∀ edit ∈ edits, edit.IsProper) : GoodBySource run source tag edits := by
  have hrouted := Event.routed_made run source tag hedits
  have hnew : (Event.unpublished run source tag).good = false := rfl
  constructor
  · rw [made, Event.good_applyAll_iff hedits, hnew]
    simp
  · rintro past rest rfl hgood
    rw [Event.made_append, Event.good_applyAll_iff (List.forall_mem_append.mp hedits).2]
    exact .inl hgood
  · exact hrouted.sourced
  · intro hgood
    rw [hrouted.tagged, if_pos hgood]
    rfl
  · intro hgood
    rw [hrouted.tagged, if_neg (by simp [hgood])]
  · exact hrouted.isInternal_eq_false
  · intro hgood
    rw [Event.apply, hrouted.markGood_eq hgood]
  · intro run' source' tag' edits' hedits'
    exact hrouted.tag_eq_tag_iff (Event.routed_made run' source' tag' hedits')
  · intro config home moves i t n h
    exact ⟨_, h.event_eq⟩
  · intro config home moves i t n h hgood ho line hline
    have hexternal : n.publication.event.isInternal = false := by
      rw [h.event_eq]
      exact hrouted.isInternal_eq_false hgood
    rw [(h.linesBy_logging ho).1 line hline]
    simp [Event.receiptLine, hexternal]
  · intro config home moves i t n h ho hc
    exact ⟨_, (h.linesBy_logging ho).2 hc, receives_receiptLine _⟩

/-! ## A source that is named like an internal event -/

def misleading : List Edit :=
  [.insert "attempts" (.int 1), .markGood, .adopt ⟨"alpha", 7⟩, .migrate "beta"]

/-- An event that was internal before it was marked as good. -/
def misled : Event :=
  made default ⟨.task, "sys.node.good"⟩ Event.nodeUpdateTag misleading

/-- Task 0 registers the logging observer, task 1 publishes, and task 2 is the notification. -/
def reporting : List Move :=
  [.join .thread [.register .logging], .step 0, .step 0, .step 0, .join .thread [.publish misled],
    .step 1, .step 1, .step 1, .step 1, .step 1, .step 1, .step 2, .step 2, .step 2]

def report : Publication :=
  ⟨1, 1, 1, { misled with id := UInt64.ofNat 1 }⟩

set_option maxRecDepth 8000 in
theorem reporting_notifies : ((new default .thread).play reporting).Notifies misled 2
    ⟨.thread, .delivery ⟨report, 0, .logging⟩, .finished, [], .returned⟩ ⟨report, 0, .logging⟩ where
  task := rfl
  notice := rfl
  called := by
    refine ⟨1, List.mem_of_getElem? (i := 3) ?_⟩
    rfl

theorem misled_by_source :
    (∀ edit ∈ misleading, edit.IsProper) ∧ misled.good = true ∧
      misled.tag = "task.sys.node.good.good" ∧ misled.isInternal = false ∧
      ∃ line, ((new default .thread).play reporting).linesBy 2 = [line] ∧ line.level = .info := by
  have hproper : ∀ edit ∈ misleading, edit.IsProper := by
    simp [misleading, Edit.IsProper]
  have hgood : misled.good = true := rfl
  have h := good_by_source default ⟨.task, "sys.node.good"⟩ Event.nodeUpdateTag misleading hproper
  obtain ⟨line, hline, -⟩ := h.logged _ _ _ _ _ _ reporting_notifies rfl rfl
  have hlevel := h.level _ _ _ _ _ _ reporting_notifies hgood rfl line (by rw [hline]; simp)
  exact ⟨hproper, hgood, h.good hgood, h.external hgood, line, hline, hlevel⟩

end State

end FlowEvents.Bus
