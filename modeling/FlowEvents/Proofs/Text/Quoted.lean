import FlowEvents.Text.Quoted

/-! # Quoted text can be taken at its word

A quotation ends at the first quote that no backslash escapes, and undoing the escapes on the way
there gives back the text.  So whatever a text holds, quotes and backslashes and what looks like an
escape among them, it cannot reach beyond its quotation, and two texts are never quoted alike.

`Written` lists the three ways to write a character; nothing else looks at how an escape is chosen.
-/

namespace FlowEvents.Text.Quoted

/-! ## How a character is written -/

/-- The character that a letter behind a backslash stands for. -/
def ofLetter? : Char → Option Char
  | '0' => some '\x00'
  | 't' => some '\t'
  | 'n' => some '\n'
  | 'r' => some '\r'
  | '"' => some '"'
  | '\\' => some '\\'
  | _ => none

/-- How a character can be written. -/
inductive Written : Char → List Char → Prop
  | plain (c : Char) (hquote : c ≠ '"') (hslash : c ≠ '\\') (hvisible : isHidden c = false) :
      Written c [c]
  | byLetter (c l : Char) (hl : ofLetter? l = some c) : Written c ['\\', l]
  | byCode (c : Char) : Written c ('\\' :: 'u' :: '\x7b' :: (codePoint c ++ ['\x7d']))

theorem written_escape (c : Char) : Written c (escape c) := by
  unfold escape
  split
  next => exact .byLetter _ '0' rfl
  next => exact .byLetter _ 't' rfl
  next => exact .byLetter _ 'n' rfl
  next => exact .byLetter _ 'r' rfl
  next => exact .byLetter _ '"' rfl
  next => exact .byLetter _ '\\' rfl
  next hquote hslash =>
    split
    next => exact .byCode c
    next hvisible => exact .plain c hquote hslash (Bool.eq_false_iff.mpr hvisible)

/-! ## Code points -/

/-- The digits of code points. -/
def hexDigits : List Char :=
  ['0', '1', '2', '3', '4', '5', '6', '7', '8', '9', 'a', 'b', 'c', 'd', 'e', 'f']

/-- The value of a digit. -/
def hexValue (c : Char) : Nat :=
  if c.isDigit then c.toNat - '0'.toNat else c.toNat - 'a'.toNat + 10

theorem mem_hexDigits_of_mem_toDigits {n : Nat} {d : Char} (h : d ∈ Nat.toDigits 16 n) :
    d ∈ hexDigits := by
  have hlast : ∀ m < 16, Nat.digitChar m ∈ hexDigits := by decide
  induction n using Nat.strongRecOn with
  | ind n ih =>
      by_cases hn : n < 16
      · rw [Nat.toDigits_of_lt_base hn, List.mem_singleton] at h
        rw [h]
        exact hlast n hn
      · rw [Nat.toDigits_of_base_le (by decide) (by omega), List.mem_append,
          List.mem_singleton] at h
        rcases h with h | rfl
        · exact ih (n / 16) (by omega) h
        · exact hlast _ (by omega)

/-- What digits write behind a number that has been read already. -/
def hexNumber (n : Nat) (ds : List Char) : Nat :=
  ds.foldl (fun n d => 16 * n + hexValue d) n

theorem hexNumber_toDigits (n : Nat) : hexNumber 0 (Nat.toDigits 16 n) = n := by
  have hlast : ∀ m < 16, hexValue (Nat.digitChar m) = m := by decide
  induction n using Nat.strongRecOn with
  | ind n ih =>
      by_cases hn : n < 16
      · rw [Nat.toDigits_of_lt_base hn, hexNumber, List.foldl_cons, List.foldl_nil, hlast n hn]
        omega
      · have hfront := ih (n / 16) (by omega)
        rw [hexNumber] at hfront
        rw [Nat.toDigits_of_base_le (by decide) (by omega), hexNumber, List.foldl_append, hfront,
          List.foldl_cons, List.foldl_nil, hlast _ (by omega)]
        omega

/-! ## Reading a quotation -/

/-- Where a reader of a quotation is. -/
inductive Mode where
  | text
  /-- Behind a backslash. -/
  | escape
  /-- Within a code point, whose digits so far write `n`. -/
  | code (n : Nat)

/-- Reads a quotation behind its opening quote: the text, and what stands behind the quote that
closes it. -/
def read? : Mode → List Char → Option (List Char × List Char)
  | _, [] => none
  | .text, c :: cs =>
    if c = '"' then some ([], cs)
    else if c = '\\' then read? .escape cs
    else (read? .text cs).map (Prod.map (c :: ·) id)
  | .escape, 'u' :: '\x7b' :: cs => read? (.code 0) cs
  | .escape, l :: cs =>
    match ofLetter? l with
    | some c => (read? .text cs).map (Prod.map (c :: ·) id)
    | none => none
  | .code n, d :: cs =>
    if d = '\x7d' then (read? .text cs).map (Prod.map (Char.ofNat n :: ·) id)
    else read? (.code (16 * n + hexValue d)) cs

theorem read?_digits (n : Nat) {ds : List Char} (hds : '\x7d' ∉ ds) (rest : List Char) :
    read? (.code n) (ds ++ '\x7d' :: rest) =
      (read? .text rest).map (Prod.map (Char.ofNat (hexNumber n ds) :: ·) id) := by
  induction ds generalizing n with
  | nil => rfl
  | cons d ds ih =>
      rw [List.mem_cons, not_or] at hds
      rw [List.cons_append, read?, if_neg (Ne.symm hds.1), ih _ hds.2]
      rfl

theorem not_mem_codePoint {c d : Char} (hd : d ∉ hexDigits) : d ∉ codePoint c :=
  fun hmem => hd (mem_hexDigits_of_mem_toDigits hmem)

/-- One character is read as it was written. -/
theorem Written.read?_append {c : Char} {cs : List Char} (h : Written c cs) (rest : List Char) :
    read? .text (cs ++ rest) = (read? .text rest).map (Prod.map (c :: ·) id) := by
  cases h with
  | plain hquote hslash =>
      rw [List.singleton_append, read?, if_neg hquote, if_neg hslash]
  | byLetter l hl =>
      have hu : l ≠ 'u' := by
        rintro rfl
        cases hl
      show read? .escape (l :: rest) = _
      rw [read?, hl]
      intro cs heq
      exact absurd heq hu
  | byCode =>
      have hread := read?_digits 0 (not_mem_codePoint (c := c) (by decide)) rest
      rw [codePoint, hexNumber_toDigits, Char.ofNat_toNat] at hread
      rw [← hread]
      simp [read?, codePoint]

/-- **Quotations.** Reading gives back the text that was quoted and stops at the quote that closes
it. -/
theorem read?_body (cs rest : List Char) :
    read? .text (body cs ++ '"' :: rest) = some (cs, rest) := by
  induction cs with
  | nil => rfl
  | cons c cs ih =>
      rw [body_cons, List.append_assoc, (written_escape c).read?_append, ih]
      rfl

/-! ## Quotes that no backslash escapes -/

/-- The positions of the quotes that no backslash escapes, the first character being at `i`. -/
def bareQuotes (i : Nat) : List Char → List Nat
  | [] => []
  | '\\' :: _ :: cs => bareQuotes (i + 2) cs
  | c :: cs => if c = '"' then i :: bareQuotes (i + 1) cs else bareQuotes (i + 1) cs

theorem bareQuotes_cons {c : Char} (hslash : c ≠ '\\') (i : Nat) (cs : List Char) :
    bareQuotes i (c :: cs) =
      if c = '"' then i :: bareQuotes (i + 1) cs else bareQuotes (i + 1) cs := by
  rw [bareQuotes.eq_def]
  split
  next heq => cases heq
  next heq => exact absurd (List.cons.inj heq).1 hslash
  next heq =>
    obtain ⟨rfl, rfl⟩ := List.cons.inj heq
    rfl

theorem bareQuotes_quote (i : Nat) (cs : List Char) :
    bareQuotes i ('"' :: cs) = i :: bareQuotes (i + 1) cs := by
  rw [bareQuotes_cons (by decide), if_pos rfl]

/-- Where nothing is escaped, only quotes count. -/
theorem bareQuotes_append {cs : List Char} (hquote : '"' ∉ cs) (hslash : '\\' ∉ cs) (i : Nat)
    (rest : List Char) : bareQuotes i (cs ++ rest) = bareQuotes (i + cs.length) rest := by
  induction cs generalizing i with
  | nil => rfl
  | cons c cs ih =>
      rw [List.mem_cons, not_or] at hquote hslash
      rw [List.cons_append, bareQuotes_cons (Ne.symm hslash.1), if_neg (Ne.symm hquote.1),
        ih hquote.2 hslash.2, List.length_cons]
      congr 1
      omega

/-- A character of a quotation brings no bare quote. -/
theorem Written.bareQuotes_append {c : Char} {cs : List Char} (h : Written c cs) (i : Nat)
    (rest : List Char) : bareQuotes i (cs ++ rest) = bareQuotes (i + cs.length) rest := by
  cases h with
  | plain hquote hslash =>
      exact Quoted.bareQuotes_append (by simpa using Ne.symm hquote) (by simpa using Ne.symm hslash)
        i rest
  | byLetter l hl => rfl
  | byCode =>
      have hquote : '"' ∉ '\x7b' :: (codePoint c ++ ['\x7d']) := by
        simp [not_mem_codePoint (c := c) (d := '"') (by decide)]
      have hslash : '\\' ∉ '\x7b' :: (codePoint c ++ ['\x7d']) := by
        simp [not_mem_codePoint (c := c) (d := '\\') (by decide)]
      show bareQuotes (i + 2) (('\x7b' :: (codePoint c ++ ['\x7d'])) ++ rest) = _
      rw [Quoted.bareQuotes_append hquote hslash, Nat.add_assoc, Nat.add_comm 2]
      rfl

theorem bareQuotes_body (cs : List Char) (i : Nat) (rest : List Char) :
    bareQuotes i (body cs ++ rest) = bareQuotes (i + (body cs).length) rest := by
  induction cs generalizing i with
  | nil => rfl
  | cons c cs ih =>
      rw [body_cons, List.append_assoc, (written_escape c).bareQuotes_append, ih,
        List.length_append, Nat.add_assoc]

/-! ## Controls -/

/-- True of the control characters of ASCII. -/
def isAsciiControl (c : Char) : Bool :=
  c.toNat < 0x20 || c.toNat == 0x7f

theorem isAsciiControl_of_visible {c : Char} (h : isHidden c = false) :
    isAsciiControl c = false := by
  have hdelete : isHidden '\x7f' = true := by decide
  rw [isAsciiControl, Bool.or_eq_false_iff]
  constructor
  · exact (Bool.or_eq_false_iff.mp h).1
  · rw [beq_eq_false_iff_ne]
    intro hc
    obtain rfl : c = '\x7f' := Char.toNat_inj.mp hc
    rw [hdelete] at h
    cases h

theorem Written.isAsciiControl_eq_false {c d : Char} {cs : List Char} (h : Written c cs)
    (hd : d ∈ cs) : isAsciiControl d = false := by
  cases h with
  | plain hquote hslash hvisible =>
      rw [List.mem_singleton.mp hd]
      exact isAsciiControl_of_visible hvisible
  | byLetter l hl =>
      have hletter : isAsciiControl l = false := by
        unfold ofLetter? at hl
        split at hl
        case h_7 => cases hl
        all_goals decide
      simp only [List.mem_cons, List.not_mem_nil, or_false] at hd
      rcases hd with rfl | rfl
      · decide
      · exact hletter
  | byCode =>
      have hdigits : (hexDigits.all fun l => !isAsciiControl l) = true := by decide
      simp only [List.mem_cons, List.mem_append, List.not_mem_nil, or_false] at hd
      rcases hd with rfl | rfl | rfl | hd | rfl
      case inr.inr.inr.inl =>
        have hdigit := List.all_eq_true.mp hdigits d (mem_hexDigits_of_mem_toDigits hd)
        simpa using hdigit
      all_goals decide

theorem isAsciiControl_of_mem_body {cs : List Char} {d : Char} (hd : d ∈ body cs) :
    isAsciiControl d = false := by
  obtain ⟨c, -, hd⟩ := List.mem_flatMap.mp hd
  exact (written_escape c).isAsciiControl_eq_false hd

end Quoted

open Quoted

/-- Two texts are never quoted alike. -/
theorem quoted_inj {s t : String} : quoted s = quoted t ↔ s = t := by
  constructor
  · intro heq
    have hread := congrArg (fun q => read? .text q.toList.tail) heq
    simp only [toList_quoted, List.cons_append, List.tail_cons, read?_body] at hread
    exact String.toList_injective (Prod.mk.inj (Option.some.inj hread)).1
  · exact congrArg quoted

/-! ## Messages that quote a text -/

/-- A message on one line with one quotation, that of the text: the only quotes that are not escaped
are those at its ends, and from the first of them on the text can be read back. -/
structure Quotes (message text : String) : Prop where
  printable : ∀ c ∈ message.toList, isAsciiControl c = false
  delimited : ∃ front inside back : List Char,
    message.toList = front ++ '"' :: inside ++ '"' :: back ∧
      bareQuotes 0 message.toList = [front.length, front.length + 1 + inside.length] ∧
      read? .text (inside ++ '"' :: back) = some (text.toList, back)

/-- True of the characters that neither end nor escape anything. -/
def isPlain (c : Char) : Bool :=
  c != '"' && c != '\\' && !isAsciiControl c

theorem of_all_isPlain {cs : List Char} (h : cs.all isPlain = true) :
    '"' ∉ cs ∧ '\\' ∉ cs ∧ ∀ c ∈ cs, isAsciiControl c = false := by
  rw [List.all_eq_true] at h
  refine ⟨fun hmem => absurd (h _ hmem) (by decide), fun hmem => absurd (h _ hmem) (by decide), ?_⟩
  intro c hc
  have hplain := h c hc
  simp only [isPlain, Bool.and_eq_true, Bool.not_eq_true'] at hplain
  exact hplain.2

theorem quotes_of_plain {front back : String} (hfront : front.toList.all isPlain = true)
    (hback : back.toList.all isPlain = true) (text : String) :
    Quotes (front ++ quoted text ++ back) text := by
  obtain ⟨hquote, hslash, hcontrol⟩ := of_all_isPlain hfront
  obtain ⟨hquote', hslash', hcontrol'⟩ := of_all_isPlain hback
  have hlist : (front ++ quoted text ++ back).toList =
      front.toList ++ '"' :: body text.toList ++ '"' :: back.toList := by
    simp [toList_quoted]
  constructor
  · intro c hc
    rw [hlist] at hc
    simp only [List.mem_append, List.mem_cons] at hc
    rcases hc with (hc | rfl | hc) | rfl | hc
    · exact hcontrol c hc
    · decide
    · exact isAsciiControl_of_mem_body hc
    · decide
    · exact hcontrol' c hc
  · refine ⟨front.toList, body text.toList, back.toList, hlist, ?_, read?_body _ _⟩
    have hend : ∀ i, bareQuotes i back.toList = [] := fun i => by
      have hnil := bareQuotes_append hquote' hslash' i []
      rwa [List.append_nil] at hnil
    rw [hlist, List.append_assoc, bareQuotes_append hquote hslash, List.cons_append,
      bareQuotes_quote, bareQuotes_body, bareQuotes_quote, hend, Nat.zero_add]

end FlowEvents.Text
