import FlowEvents.Proofs.Identity.Grammar
import FlowEvents.Proofs.Text.Quoted
import Mathlib.Data.List.Basic

/-! # Messages tell the fault

A message is a wording around the text that the fault names.  The wordings differ in how they begin
or in how they end, whatever the text between them; so the ends of a message tell the kind of its
fault, and what is left between them is the text: quoted, or, if it is the id of a run, as it is.

What the reader of hosted ids refuses is foreign text, and always quoted.
-/

namespace FlowEvents

namespace IdFault

/-! ## Wordings -/

/-- The text that a fault names. -/
def subject : IdFault → String
  | malformed text => text
  | emptyHost text => text
  | badNumber text => text
  | unassigned host => host
  | alreadyAdopted current => current

/-- The fault of the same kind that names another text. -/
def about : IdFault → String → IdFault
  | malformed _ => malformed
  | emptyHost _ => emptyHost
  | badNumber _ => badNumber
  | unassigned _ => unassigned
  | alreadyAdopted _ => alreadyAdopted

/-- What a message says in front of the text. -/
def lead : IdFault → String
  | malformed _ => "malformed hosted id "
  | emptyHost _ => "hosted id "
  | badNumber _ => "hosted id "
  | unassigned _ => "hosted id for host "
  | alreadyAdopted _ => "run "

/-- How a message shows the text. -/
def shown : IdFault → String
  | alreadyAdopted current => current
  | fault => Text.quoted fault.subject

/-- What a message says behind the text. -/
def verdict : IdFault → String
  | malformed _ => ": expected <host>-<id>"
  | emptyHost _ => " has an empty host"
  | badNumber _ => " has a non-numeric id"
  | unassigned _ => " is unassigned (id 0)"
  | alreadyAdopted _ => " is already adopted"

theorem message_eq (fault : IdFault) :
    fault.message = fault.lead ++ fault.shown ++ fault.verdict := by
  cases fault <;> rfl

theorem about_subject (fault : IdFault) : fault.about fault.subject = fault := by
  cases fault <;> rfl

theorem message_about (fault : IdFault) (text : String) :
    (fault.about text).message = fault.lead ++ (fault.about text).shown ++ fault.verdict := by
  rw [message_eq]
  cases fault <;> rfl

theorem shown_about_inj (fault : IdFault) {s t : String} :
    (fault.about s).shown = (fault.about t).shown ↔ s = t := by
  cases fault with
  | malformed | emptyHost | badNumber | unassigned => exact Text.quoted_inj
  | alreadyAdopted => exact Iff.rfl

/-! ## The ends of a message tell the kind of fault -/

/-- The first and the last character of a text. -/
def ends (s : String) : Option Char × Option Char :=
  (s.toList.head?, s.toList.getLast?)

/-- The kind of fault that the ends of a message tell. -/
def ofEnds? : Option Char × Option Char → Option (String → IdFault)
  | (some 'm', some '>') => some malformed
  | (some 'h', some 't') => some emptyHost
  | (some 'h', some 'd') => some badNumber
  | (some 'h', some ')') => some unassigned
  | (some 'r', some 'd') => some alreadyAdopted
  | _ => none

theorem ends_append {front back : String} (hfront : front ≠ "") (hback : back ≠ "")
    (s : String) : ends (front ++ s ++ back) = ((ends front).1, (ends back).2) := by
  have hne : ∀ {s : String}, s ≠ "" → s.toList ≠ [] :=
    fun hs hnil => hs (String.toList_eq_nil_iff.mp hnil)
  simp only [ends, String.toList_append, Prod.mk.injEq]
  constructor
  · obtain ⟨c, cs, hcons⟩ := List.exists_cons_of_ne_nil (hne hfront)
    rw [hcons]
    rfl
  · exact List.getLast?_append_of_ne_nil _ (hne hback)

theorem ofEnds?_message (fault : IdFault) : ofEnds? (ends fault.message) = some fault.about := by
  have hends : ends fault.message = ((ends fault.lead).1, (ends fault.verdict).2) := by
    rw [message_eq]
    apply ends_append
    all_goals cases fault <;> simp [lead, verdict]
  rw [hends]
  cases fault <;> simp [ends, lead, verdict, ofEnds?, about]

theorem message_inj {a b : IdFault} : a.message = b.message ↔ a = b := by
  constructor
  · intro h
    have hkind : a.about = b.about := by
      apply Option.some.inj
      rw [← ofEnds?_message, ← ofEnds?_message, h]
    have hb : a.about b.subject = b := by rw [hkind, about_subject]
    -- the wording is the same, so what it stands around is the same as well
    have hsame : (a.about a.subject).message = (a.about b.subject).message := by
      rw [about_subject, hb, h]
    rw [message_about, message_about, String.append_left_inj, String.append_right_inj,
      shown_about_inj] at hsame
    rw [← hb, ← hsame, about_subject]
  · exact congrArg message

/-! ## Faults of the reader -/

theorem isPlain_lead (fault : IdFault) : fault.lead.toList.all Text.isPlain = true := by
  cases fault <;> (dsimp only [lead]; decide +kernel)

theorem isPlain_verdict (fault : IdFault) : fault.verdict.toList.all Text.isPlain = true := by
  cases fault <;> (dsimp only [verdict]; decide +kernel)

theorem quotes_message_of_refused {s : String} {fault : IdFault} (h : HostId.Refused s fault) :
    Text.Quotes fault.message fault.subject := by
  rw [message_eq]
  cases h with
  | malformed | emptyHost | badNumber | unassigned =>
      exact Text.quotes_of_plain (isPlain_lead _) (isPlain_verdict _) _

/-- **Messages.** A message tells which fault it is of, its text included.  What the reader of
hosted ids says of a text that it refuses is on one line, and the text, or the host in it, is
quoted so that nothing in it ends the quotation. -/
theorem messages_tell_faults :
    (∀ a b : IdFault, a.message = b.message → a = b) ∧
      ∀ s fault, HostId.parse s = .error fault →
        Text.Quotes fault.message fault.subject ∧
          (fault.subject = s ∨
            fault = .unassigned fault.subject ∧ ∃ number, s = fault.subject ++ "-" ++ number) := by
  refine ⟨fun a b => message_inj.mp, ?_⟩
  intro s fault hparse
  have hrefused := HostId.parse_eq_error_iff.mp hparse
  refine ⟨quotes_message_of_refused hrefused, ?_⟩
  cases hrefused with
  | malformed | emptyHost | badNumber => exact .inl rfl
  | unassigned host number => exact .inr ⟨rfl, number, rfl⟩

/-- A text that goes on like the message of another fault, and over the end of the line. -/
def forged : String := "h\" has an empty host\n-x"

theorem messages_tell_forged :
    HostId.parse forged = .error (.badNumber forged) ∧
      Text.Quotes (badNumber forged).message forged := by
  have hparse : HostId.parse forged = .error (.badNumber forged) := rfl
  exact ⟨hparse, (messages_tell_faults.2 forged _ hparse).1⟩

end IdFault

end FlowEvents
