import FlowEvents.Json.Parser
import FlowEvents.Json.Printer

/-! # A string is read as it was written

A writer escapes character by character, and the reader collects one piece for each of them.  Only
the controls without a letter of their own become units; all of them lie below the surrogates, so
each is put together on its own.
-/

namespace FlowEvents.Json

namespace Parser

/-- The controls that are escaped by a letter. -/
def hasLetter (c : Char) : Bool :=
  c == '\x08' || c == '\x0c' || c == '\n' || c == '\r' || c == '\t'

/-- What the reader collects for a character. -/
def pieceOf (c : Char) : Piece :=
  if c.toNat < 0x20 ∧ hasLetter c = false then .unit c.toNat else .char c

/-! ## Units -/

theorem fourHex_of_lt :
    ∀ n < 0x20, Text.fourHex n = ['0', '0', Nat.digitChar (n / 16), Nat.digitChar (n % 16)] := by
  decide

theorem unit?_of_lt :
    ∀ n < 0x20, unit? '0' '0' (Nat.digitChar (n / 16)) (Nat.digitChar (n % 16)) = some n := by
  decide

theorem pieces?_unit {n : Nat} (h : n < 0x20) (rest : List Char) :
    pieces? ('\\' :: 'u' :: (Text.fourHex n ++ rest)) =
      (pieces? rest).map fun p => (.unit n :: p.1, p.2) := by
  rw [fourHex_of_lt n h]
  simp only [List.cons_append, List.nil_append]
  rw [pieces?, unit?_of_lt n h]

/-! ## Pieces -/

theorem pieces?_plain {c : Char} (hctrl : ¬ c.toNat < 0x20) (hquote : c ≠ '"') (hslash : c ≠ '\\')
    (rest : List Char) :
    pieces? (c :: rest) = (pieces? rest).map fun p => (.char c :: p.1, p.2) := by
  rw [pieces?.eq_def]
  split
  next heq => cases heq
  next heq => exact absurd (List.cons.inj heq).1 hquote
  next heq => exact absurd (List.cons.inj heq).1 hslash
  next heq => exact absurd (List.cons.inj heq).1 hslash
  next heq =>
    obtain ⟨rfl, rfl⟩ := List.cons.inj heq
    rw [if_neg (not_or.mpr ⟨hctrl, hslash⟩)]

theorem pieces?_escape (c : Char) (rest : List Char) :
    pieces? (Text.escape c ++ rest) =
      (pieces? rest).map fun p => (pieceOf c :: p.1, p.2) := by
  unfold Text.escape
  split
  all_goals try
    rw [List.cons_append, List.cons_append, List.nil_append, pieces?]
    · rfl
    · intro _ _ _ _ _ heq
      cases heq
  next hquote hslash hb hf hn hr ht =>
    have hletter : hasLetter c = false := by
      simp only [hasLetter, Bool.or_eq_false_iff, beq_eq_false_iff_ne]
      exact ⟨⟨⟨⟨hb, hf⟩, hn⟩, hr⟩, ht⟩
    by_cases hctrl : c.toNat < 0x20
    · rw [if_pos hctrl, pieceOf, if_pos ⟨hctrl, hletter⟩, List.append_assoc]
      exact pieces?_unit hctrl rest
    · rw [if_neg hctrl, pieceOf, if_neg (fun h => hctrl h.1)]
      exact pieces?_plain hctrl hquote hslash rest

theorem pieces?_text (cs rest : List Char) :
    pieces? (cs.flatMap Text.escape ++ '"' :: rest) = some (cs.map pieceOf, rest) := by
  induction cs with
  | nil =>
      rw [List.flatMap_nil, List.nil_append, pieces?]
      rfl
  | cons c cs ih =>
      rw [List.flatMap_cons, List.append_assoc, pieces?_escape, ih]
      rfl

/-! ## Characters -/

theorem assemble_pieceOf (c : Char) (ps : List Piece) :
    assemble (pieceOf c :: ps) = (assemble ps).map (c :: ·) := by
  unfold pieceOf
  split
  next h =>
    have hhigh : isHigh c.toNat = false := by
      simp only [isHigh, Bool.and_eq_false_iff, decide_eq_false_iff_not]
      omega
    have hlow : isLow c.toNat = false := by
      simp only [isLow, Bool.and_eq_false_iff, decide_eq_false_iff_not]
      omega
    rw [assemble.eq_def]
    simp [hhigh, hlow]
  next => rw [assemble]

theorem assemble_map_pieceOf (cs : List Char) : assemble (cs.map pieceOf) = .ok cs := by
  induction cs with
  | nil => rfl
  | cons c cs ih =>
      rw [List.map_cons, assemble_pieceOf, ih]
      rfl

/-- **Strings.** The string that was written is read, and the text behind it is left. -/
theorem string?_text (s : String) (rest : List Char) :
    string? (s.toList.flatMap Text.escape ++ '"' :: rest) = some (.plain s, rest) := by
  rw [string?, pieces?_text, Option.map_some]
  dsimp only
  rw [spelled, assemble_map_pieceOf]
  dsimp only
  rw [String.ofList_toList]

end Parser

end FlowEvents.Json
