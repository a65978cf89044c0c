import FlowEvents.Proofs.Decimal.Literals
import FlowEvents.Proofs.Json.Strings

/-! # A value is read as it was written

The parser takes the text of a value off the front of a text and leaves what is behind it.  The
induction goes over the value; its fuel is measured by the length of the text, two units a
character.  A number must not be followed by what it could go on with, and within a text it never
is.
-/

namespace FlowEvents.Json

open Decimal (Literal Stops stops_cons)

/-! ## What has a text -/

mutual

/-- There is a text of the value: nothing in it is flawed. -/
def Printable : Json → Prop
  | arr items => AllPrintable items
  | obj members => MembersPrintable members
  | flawed _ => False
  | _ => True

def AllPrintable : List Json → Prop
  | [] => True
  | item :: items => Printable item ∧ AllPrintable items

def MembersPrintable : List (Name × Json) → Prop
  | [] => True
  | (name, value) :: members =>
    (∃ s, name = .plain s) ∧ Printable value ∧ MembersPrintable members

end

namespace Parser

/-! ## First characters -/

theorem skipBlanks_cons {c : Char} (cs : List Char) (h : isBlank c = false) :
    skipBlanks (c :: cs) = c :: cs := by
  rw [skipBlanks, List.dropWhile_cons, h]
  rfl

/-- A text of a value starts neither with a blank nor with a bracket that closes. -/
def Starts (cs : List Char) : Prop :=
  ∃ c rest, cs = c :: rest ∧ isBlank c = false ∧ c ≠ ']'

theorem Starts.append {cs : List Char} (h : Starts cs) (more : List Char) :
    Starts (cs ++ more) := by
  obtain ⟨c, rest, rfl, hc⟩ := h
  exact ⟨c, rest ++ more, rfl, hc⟩

theorem not_blank_of_isDigit {c : Char} (h : c.isDigit = true) : isBlank c = false := by
  simp only [isBlank, Bool.or_eq_false_iff, beq_eq_false_iff_ne]
  refine ⟨⟨⟨?_, ?_⟩, ?_⟩, ?_⟩
  all_goals
    rintro rfl
    cases h

/-- A number starts with its sign or with a digit. -/
theorem literal_starts (l : Literal) :
    ∃ c rest, l.text = c :: rest ∧ (c = '-' ∨ c.isDigit = true) := by
  obtain ⟨c, ds, hcons⟩ :=
    List.exists_cons_of_ne_nil (Nat.toDigits_ne_nil (n := l.whole) (b := 10))
  rw [Literal.text]
  cases l.negative with
  | true => exact ⟨'-', _, rfl, .inl rfl⟩
  | false =>
      refine ⟨c, _, by rw [if_neg (by simp), hcons]; rfl, .inr ?_⟩
      exact Literal.isDigit_toDigits c (by rw [hcons]; exact List.mem_cons_self)

theorem starts_text {j : Json} (h : j.Printable) : Starts j.text := by
  cases j with
  | null => exact ⟨_, _, rfl, by decide, by decide⟩
  | bool b => cases b <;> exact ⟨_, _, rfl, by decide, by decide⟩
  | num n =>
      obtain ⟨c, rest, htext, hc⟩ := literal_starts n
      refine ⟨c, rest, htext, ?_, ?_⟩
      · rcases hc with rfl | hc
        · decide
        · exact not_blank_of_isDigit hc
      · rcases hc with rfl | hc
        · decide
        · rintro rfl
          cases hc
  | str s => exact ⟨_, _, rfl, by decide, by decide⟩
  | arr items =>
      cases items with
      | nil => exact ⟨_, _, by rw [text], by decide, by decide⟩
      | cons item items => exact ⟨_, _, by rw [text, List.cons_append], by decide, by decide⟩
  | obj members =>
      rcases members with _ | ⟨⟨name, value⟩, members⟩
      · exact ⟨_, _, by rw [text], by decide, by decide⟩
      · exact ⟨_, _, by rw [text, List.cons_append, List.cons_append], by decide, by decide⟩
  | flawed flaw => cases h

/-! ## Scalars -/

theorem value_num (fuel : Nat) (l : Literal) {rest : List Char}
    (h : Stops Literal.isNumberPart rest) :
    value (fuel + 1) (l.text ++ rest) = (num l, rest) := by
  have hread := Literal.read?_text l h
  obtain ⟨c, cs, htext, hc⟩ := literal_starts l
  have hblank : isBlank c = false := by
    rcases hc with rfl | hc
    · decide
    · exact not_blank_of_isDigit hc
  have hnumber : value (fuel + 1) (l.text ++ rest) = number (l.text ++ rest) := by
    rw [htext, List.cons_append, value.eq_def]
    dsimp only
    rw [skipBlanks_cons _ hblank]
    split
    all_goals first
      | rfl
      | (next heq =>
          obtain ⟨rfl, -⟩ := List.cons.inj heq
          rcases hc with hc | hc <;> cases hc)
  rw [hnumber, number, hread]

theorem value_str (fuel : Nat) (s : String) (rest : List Char) :
    value (fuel + 1) (Text.string s ++ rest) = (str s, rest) := by
  have htext : Text.string s ++ rest =
      '"' :: (s.toList.flatMap Text.escape ++ '"' :: rest) := by
    simp [Text.string]
  rw [htext, value.eq_def]
  dsimp only
  rw [skipBlanks_cons _ (by decide)]
  show string _ = _
  rw [string, string?_text]

/-! ## Arrays and objects -/

theorem name?_text (s : String) (rest : List Char) :
    name? (Text.string s ++ ':' :: rest) = some (.plain s, some rest) := by
  have htext : Text.string s ++ ':' :: rest =
      '"' :: (s.toList.flatMap Text.escape ++ '"' :: ':' :: rest) := by
    simp [Text.string]
  rw [htext, name?, skipBlanks_cons _ (by decide)]
  simp only [string?_text, Option.map_some]
  rw [skipBlanks_cons _ (by decide)]
  rfl

theorem value_bracket (fuel : Nat) {cs : List Char} (h : Starts cs) :
    value (fuel + 1) ('[' :: cs) = (arr (items fuel cs).1, (items fuel cs).2) := by
  obtain ⟨c, rest, rfl, hblank, hclose⟩ := h
  rw [value.eq_def]
  dsimp only
  rw [skipBlanks_cons _ (by decide)]
  simp only [skipBlanks_cons _ hblank]
  split
  next heq => exact absurd (List.cons.inj heq).1 hclose
  next => rfl

theorem value_brace {fuel : Nat} {s : String} {cs rest : List Char}
    {ms : List (Name × Json)} (h : members fuel (Text.string s ++ cs) = (ms, rest)) :
    value (fuel + 1) ('\x7b' :: (Text.string s ++ cs)) = (obj ms, rest) := by
  rw [value.eq_def]
  show (obj (members fuel (Text.string s ++ cs)).1, (members fuel (Text.string s ++ cs)).2) = _
  rw [h]

theorem items_close {fuel : Nat} {cs rest : List Char} {item : Json}
    (h : value fuel cs = (item, ']' :: rest)) : items (fuel + 1) cs = ([item], rest) := by
  rw [items.eq_def]
  dsimp only
  rw [h]
  rfl

theorem items_comma {fuel : Nat} {cs cs₁ rest : List Char} {item : Json} {is : List Json}
    (h : value fuel cs = (item, ',' :: cs₁)) (his : items fuel cs₁ = (is, rest)) :
    items (fuel + 1) cs = (item :: is, rest) := by
  rw [items.eq_def]
  dsimp only
  rw [h]
  show (item :: (items fuel cs₁).1, (items fuel cs₁).2) = _
  rw [his]

theorem members_close {fuel : Nat} {s : String} {cs rest : List Char} {v : Json}
    (h : value fuel cs = (v, '\x7d' :: rest)) :
    members (fuel + 1) (Text.string s ++ ':' :: cs) = ([(.plain s, v)], rest) := by
  rw [members.eq_def]
  dsimp only
  rw [name?_text]
  dsimp only
  rw [h]
  rfl

theorem members_comma {fuel : Nat} {s : String} {cs cs₁ rest : List Char} {v : Json}
    {ms : List (Name × Json)} (h : value fuel cs = (v, ',' :: cs₁))
    (hms : members fuel cs₁ = (ms, rest)) :
    members (fuel + 1) (Text.string s ++ ':' :: cs) = ((.plain s, v) :: ms, rest) := by
  rw [members.eq_def]
  dsimp only
  rw [name?_text]
  dsimp only
  rw [h]
  show ((.plain s, v) :: (members fuel cs₁).1, (members fuel cs₁).2) = _
  rw [hms]

/-! ## Texts -/

theorem text_length_pos {j : Json} (h : j.Printable) : 0 < j.text.length := by
  obtain ⟨c, cs, htext, -⟩ := starts_text h
  rw [htext]
  exact Nat.succ_pos _

/-- A number may stand in front of what closes an array or goes on with it. -/
theorem stops_itemsText (is : List Json) (rest : List Char) :
    Stops Literal.isNumberPart (itemsText is ++ rest) := by
  cases is with
  | nil => exact stops_cons _ rfl
  | cons item is => exact stops_cons _ rfl

theorem stops_membersText (ms : List (Name × Json)) (rest : List Char) :
    Stops Literal.isNumberPart (membersText ms ++ rest) := by
  rcases ms with _ | ⟨⟨name, v⟩, ms⟩
  · exact stops_cons _ rfl
  · exact stops_cons _ rfl

mutual

theorem value_text :
    ∀ (j : Json) (fuel : Nat) (rest : List Char), j.Printable →
      2 * j.text.length ≤ fuel → Stops Literal.isNumberPart rest →
      value fuel (j.text ++ rest) = (j, rest)
  | j, 0, rest, hj, hfuel, hrest => by
      -- without fuel there is no text to read
      have hpos := text_length_pos hj
      omega
  | null, fuel + 1, rest, hj, hfuel, hrest => by rw [value.eq_def]; rfl
  | bool true, fuel + 1, rest, hj, hfuel, hrest => by rw [value.eq_def]; rfl
  | bool false, fuel + 1, rest, hj, hfuel, hrest => by rw [value.eq_def]; rfl
  | num l, fuel + 1, rest, hj, hfuel, hrest => value_num fuel l hrest
  | str s, fuel + 1, rest, hj, hfuel, hrest => value_str fuel s rest
  | arr [], fuel + 1, rest, hj, hfuel, hrest => by rw [value.eq_def]; rfl
  | arr (item :: is), fuel + 1, rest, hj, hfuel, hrest => by
      rw [text, List.cons_append, List.length_cons] at hfuel
      have his := items_text item is fuel rest hj (by omega)
      have hstarts := ((starts_text hj.1).append (itemsText is)).append rest
      rw [text, List.cons_append, List.cons_append, value_bracket fuel hstarts, his]
  | obj [], fuel + 1, rest, hj, hfuel, hrest => by rw [value.eq_def]; rfl
  | obj ((name, v) :: ms), fuel + 1, rest, hj, hfuel, hrest => by
      obtain ⟨s, rfl⟩ := hj.1
      rw [text, List.cons_append, List.cons_append, List.length_cons, Text.name] at hfuel
      have hms := members_text s v ms fuel rest hj.2.1 hj.2.2 (by omega)
      rw [List.append_assoc, List.append_assoc] at hms
      rw [text, List.cons_append, List.cons_append, List.cons_append, Text.name,
        List.append_assoc, List.append_assoc]
      exact value_brace hms

theorem items_text :
    ∀ (item : Json) (is : List Json) (fuel : Nat) (rest : List Char),
      AllPrintable (item :: is) → 1 + 2 * (item.text ++ itemsText is).length ≤ fuel →
      items fuel (item.text ++ itemsText is ++ rest) = (item :: is, rest)
  | item, is, 0, rest, hj, hfuel => by omega
  | item, [], fuel + 1, rest, hj, hfuel => by
      rw [List.length_append] at hfuel
      have hitem := value_text item fuel (itemsText [] ++ rest) hj.1 (by omega)
        (stops_itemsText [] rest)
      rw [List.append_assoc]
      exact items_close hitem
  | item, next :: is, fuel + 1, rest, hj, hfuel => by
      rw [List.length_append] at hfuel
      have hitem := value_text item fuel (itemsText (next :: is) ++ rest) hj.1 (by omega)
        (stops_itemsText (next :: is) rest)
      -- the comma pays for the step to the next item
      rw [itemsText, List.cons_append, List.length_cons] at hfuel
      have his := items_text next is fuel rest hj.2 (by omega)
      rw [List.append_assoc]
      exact items_comma hitem his

theorem members_text :
    ∀ (s : String) (v : Json) (ms : List (Name × Json)) (fuel : Nat)
      (rest : List Char), v.Printable → MembersPrintable ms →
      1 + 2 * (Text.string s ++ ':' :: v.text ++ membersText ms).length ≤ fuel →
      members fuel (Text.string s ++ ':' :: v.text ++ membersText ms ++ rest) =
        ((.plain s, v) :: ms, rest)
  | s, v, ms, 0, rest, hv, hms, hfuel => by omega
  | s, v, [], fuel + 1, rest, hv, hms, hfuel => by
      simp only [List.length_append, List.length_cons] at hfuel
      have hvalue := value_text v fuel (membersText [] ++ rest) hv (by omega)
        (stops_membersText [] rest)
      rw [List.append_assoc, List.append_assoc, List.cons_append]
      exact members_close hvalue
  | s, v, (name, w) :: ms, fuel + 1, rest, hv, hms, hfuel => by
      obtain ⟨t, rfl⟩ := hms.1
      simp only [List.length_append, List.length_cons] at hfuel
      have hvalue := value_text v fuel (membersText ((.plain t, w) :: ms) ++ rest) hv (by omega)
        (stops_membersText _ rest)
      rw [membersText, List.cons_append, List.cons_append, List.length_cons, Text.name] at hfuel
      have hnext := members_text t w ms fuel rest hms.2.1 hms.2.2 (by omega)
      rw [List.append_assoc, List.append_assoc, List.cons_append]
      exact members_comma hvalue hnext

end

end Parser

/-- **Texts.** The text of a value is the text of that value and of nothing more. -/
theorem parse_text {j : Json} (h : j.Printable) : parse j.text = (j, []) := by
  have hvalue := Parser.value_text j (2 * j.text.length + 2) [] h (by omega) (by
    intro c hc
    cases hc)
  rw [List.append_nil] at hvalue
  exact hvalue

end FlowEvents.Json
