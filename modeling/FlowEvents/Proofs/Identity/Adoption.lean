import FlowEvents.Proofs.Identity.Canonical
import FlowEvents.Proofs.Identity.Lifecycle

/-! # Adopting an id from its text

The id that a run takes may come as a text.  Reading and adopting refuse on grounds of their own,
and the two fit together: of the texts that are read, `na` alone stands for no id, so it alone is
read and then refused.  What is held after that came from a text, and such an id is read back from
its own text.  So the fault that a later offer meets names the id that is held, whatever was
attempted in between and however the number was spelled at first.
-/

namespace FlowEvents

/-! ## Ids that come from texts -/

namespace HostId

variable {s : String} {h : HostId}

/-- Of the texts that are read, `na` alone stands for no assigned id. -/
theorem Denotes.isAssigned_iff (hs : Denotes s h) : h.isAssigned = true ↔ s ≠ "na" := by
  rw [isAssigned, bne_iff_ne]
  cases hs with
  | unassigned => exact iff_of_false (fun hne => hne rfl) (fun hne => hne rfl)
  | assigned host number n hhost hdash hn hpos hlt =>
      exact iff_of_true (ofNat_ne_zero hpos hlt) (ne_unassignedText host number)

/-- An id that was read from some text is read from its own. -/
theorem Denotes.parse_text_eq (hs : Denotes s h) : parse h.text = .ok h := by
  rcases hs.host_iff with ⟨hhost, hn⟩ | rfl
  · exact parse_of_denotes (denotes_text hhost hn)
  · rfl

end HostId

namespace Run

/-! ## Offers by text -/

/-- What is asked of a run, which may be offered an id by its text. -/
inductive Request where
  | make (change : Change)
  | adoptText (text : String)

/-- Meets a request in place, and gives the answer. -/
def serve (r : Run) : Request → Run × Except IdFault Unit
  | .make change => r.apply change
  | .adoptText text =>
    match r.adoptText text with
    | .ok adopted => (adopted, .ok ())
    | .error fault => (r, .error fault)

/-- Meets requests in order, whatever they answer. -/
def serveAll (r : Run) (requests : List Request) : Run :=
  requests.foldl (fun r request => (r.serve request).1) r

/-- The change that a request comes to; an offer by a text that cannot be read comes to none. -/
def Request.change? : Request → Option Change
  | .make change => some change
  | .adoptText text => (HostId.parse text).toOption.map .adopt

variable {r : Run} {s : String} {h : HostId}

theorem serveAll_cons (r : Run) (request : Request) (requests : List Request) :
    r.serveAll (request :: requests) = (r.serve request).1.serveAll requests := rfl

theorem serve_of_misread {fault : IdFault} (hs : HostId.parse s = .error fault) :
    r.serve (.adoptText s) = (r, .error fault) := by
  rw [serve, adoptText, hs]
  rfl

/-- A text that can be read is as good as the id that it stands for. -/
theorem serve_of_read (hs : HostId.parse s = .ok h) :
    r.serve (.adoptText s) = r.apply (.adopt h) := by
  rw [serve, adoptText, hs]
  rfl

/-- What is asked of a run comes to changes, so the life of a run is what it is without texts. -/
theorem serveAll_eq (r : Run) (requests : List Request) :
    r.serveAll requests = r.applyAll (requests.filterMap Request.change?) := by
  induction requests generalizing r with
  | nil => rfl
  | cons request requests ih =>
      rw [serveAll_cons, ih]
      cases request with
      | make change => rfl
      | adoptText text =>
          cases hs : HostId.parse text with
          | error fault =>
              have hnone : Request.change? (.adoptText text) = none := by
                rw [Request.change?, hs]
                rfl
              rw [serve_of_misread hs, List.filterMap_cons_none hnone]
          | ok offer =>
              have hsome : Request.change? (.adoptText text) = some (.adopt offer) := by
                rw [Request.change?, hs]
                rfl
              rw [serve_of_read hs, List.filterMap_cons_some hsome, applyAll_cons]

/-! ## What is held, and what is told of it -/

/-- The run holds an id for good.  The id is read from its own text, and whoever offers another is
told that text. -/
structure Keeps (r : Run) (h : HostId) : Prop where
  origin : r.origin = h
  readBack : HostId.parse r.origin.text = .ok r.origin
  refused : ∀ offer, ∃ current, r.apply (.adopt offer) = (r, .error (.alreadyAdopted current)) ∧
    HostId.parse current = .ok r.origin
  refusedText : ∀ text offer, HostId.parse text = .ok offer →
    ∃ current, r.serve (.adoptText text) = (r, .error (.alreadyAdopted current)) ∧
      HostId.parse current = .ok r.origin

theorem keeps_of_denotes (hs : HostId.Denotes s h) (horigin : r.origin = h)
    (hadopted : r.adopted = true) : r.Keeps h := by
  subst horigin
  have hrefused : ∀ offer, r.apply (.adopt offer) =
      (r, .error (.alreadyAdopted r.origin.text)) := by
    intro offer
    rw [apply, adopt_of_adopted hadopted]
  constructor
  · rfl
  · exact hs.parse_text_eq
  · intro offer
    exact ⟨_, hrefused offer, hs.parse_text_eq⟩
  · intro text offer htext
    rw [serve_of_read htext]
    exact ⟨_, hrefused offer, hs.parse_text_eq⟩

/-- What comes of offering an id by its text. -/
structure OfferedText (r : Run) (s : String) : Prop where
  /-- It is taken just if the text is read and is not `na`. -/
  taken : (r.serve (.adoptText s)).2 = .ok () ↔ (∃ h, HostId.parse s = .ok h) ∧ s ≠ "na"
  misread : ∀ fault, HostId.parse s = .error fault → r.serve (.adoptText s) = (r, .error fault)
  reserved : s = "na" → r.serve (.adoptText s) = (r, .error (.unassigned ""))
  /-- Once taken it is kept, whatever is asked of the run afterwards. -/
  kept : (r.serve (.adoptText s)).2 = .ok () → ∀ later, ∃ h, HostId.parse s = .ok h ∧
    (r.serveAll (.adoptText s :: later)).Keeps h

/-- **Adopting from text.** A run without an id takes the id that a text stands for just if there is
one; what is refused leaves the run as it was.  The id is kept for good, it is read back from its
own text, and that is the text that the fault of every later offer tells. -/
theorem offered_text (r : Run) (s : String) (hpending : r.adopted = false) : r.OfferedText s where
  taken := by
    cases hs : HostId.parse s with
    | error fault =>
        rw [serve_of_misread hs]
        simp
    | ok h =>
        have hassigned := (HostId.parse_eq_ok_iff.mp hs).isAssigned_iff
        rw [serve_of_read hs, apply_adopt_eq_ok_iff, hassigned]
        simp [hpending]
  misread := fun fault hs => serve_of_misread hs
  reserved := by
    rintro rfl
    rw [serve_of_read (HostId.parse_of_denotes .unassigned), apply,
      adopt_of_unassigned hpending rfl]
  kept := by
    intro hok later
    cases hs : HostId.parse s with
    | error fault =>
        rw [serve_of_misread hs] at hok
        cases hok
    | ok h =>
        rw [serve_of_read hs, apply_adopt_eq_ok_iff] at hok
        have hserved : (r.serve (.adoptText s)).1 = { r with origin := h } := by
          rw [serve_of_read hs, apply, adopt_of_assigned hpending hok.2]
        have hadopted : Run.adopted { r with origin := h } = true := hok.2
        have horigin : (r.serveAll (.adoptText s :: later)).origin = h := by
          rw [serveAll_cons, hserved, serveAll_eq, adopted_kept hadopted]
        refine ⟨h, rfl, keeps_of_denotes (HostId.parse_eq_ok_iff.mp hs) horigin ?_⟩
        rw [adopted, horigin]
        exact hok.2

/-- A number with a plus sign and zeros; then a move, an offer, and texts of all kinds. -/
theorem offered_text_padded :
    (pending ⟨"deploy", 7⟩ "alpha").adopted = false ∧
      ((pending ⟨"deploy", 7⟩ "alpha").serveAll
        [.adoptText "eu-west-+007", .make (.migrate "beta"), .make (.adopt ⟨"beta", 0⟩),
          .adoptText "beta-9", .adoptText "na", .adoptText "beta"]).Keeps ⟨"eu-west", 7⟩ := by
  have hread : HostId.parse "eu-west-+007" = .ok ⟨"eu-west", 7⟩ := rfl
  have hoffered := offered_text (pending ⟨"deploy", 7⟩ "alpha") "eu-west-+007" rfl
  refine ⟨rfl, ?_⟩
  obtain ⟨h, hs, hkeeps⟩ := hoffered.kept (hoffered.taken.mpr ⟨⟨_, hread⟩, by decide⟩)
    [.make (.migrate "beta"), .make (.adopt ⟨"beta", 0⟩), .adoptText "beta-9", .adoptText "na",
      .adoptText "beta"]
  rw [hread] at hs
  rwa [← Except.ok.inj hs] at hkeeps

end Run

end FlowEvents
