import FlowEvents.Proofs.Wire.Arrays
import FlowEvents.Proofs.Wire.Kinds

/-! # Numbers are read whole or not at all

A word is read from the literal of an integer within its range and from nothing else; a payload
value keeps an integer that it can hold and takes any other for a floating-point number.

Which literal a record reads as its word is a matter of place.  `Stands` says where, in either form
of the record and whatever else is wrong with it; `Fits` adds that nothing else is.
-/

namespace FlowEvents.Wire

open Decimal (Binary64 Literal)

/-! ## The place of a field -/

/-- A value stands in the place of a field: it is a member of that name, or the item that has the
number of the field. -/
inductive Stands (fs : List Field) (name : String) (value : Json) : Json → Prop
  | member (members : List (String × Json)) (hformed : ∀ m ∈ members, m.2.isFormed = true)
      (hvalue : (name, value) ∈ members) : Stands fs name value (.ofMembers members)
  | item (items : List Json) (i : Nat) (hname : fs[i]?.map Field.name = some name)
      (hvalue : items[i]? = some value) : Stands fs name value (.arr items)

/-- A value stands in the place of a field, once, and every other field takes something. -/
inductive Fits (fs : List Field) (name : String) (value : Json) : Json → Prop
  | member (members : List (String × Json)) (hformed : ∀ m ∈ members, m.2.isFormed = true)
      (hvalue : valuesOf name members = [value])
      (hothers : ∀ f ∈ fs, f.name ≠ name → ∃ x, f.Takes members x) :
      Fits fs name value (.ofMembers members)
  | item (items : List Json) (i : Nat) (hname : fs[i]?.map Field.name = some name)
      (hvalue : items[i]? = some value) (hlength : items.length ≤ fs.length)
      (hothers : ∀ (k : Nat) (f : Field), fs[k]? = some f → f.name ≠ name →
        (∃ j x, items[k]? = some j ∧ f.read j = .ok x) ∨ items[k]? = none ∧ f.absent ≠ none) :
      Fits fs name value (.arr items)

theorem mem_valuesOf {name : String} {value : Json} {members : List (String × Json)} :
    value ∈ valuesOf name members ↔ (name, value) ∈ members := by
  unfold valuesOf
  rw [List.mem_filterMap]
  constructor
  · rintro ⟨m, hm, hvalue⟩
    split_ifs at hvalue with hname
    rwa [← hname, ← Option.some.inj hvalue]
  · intro h
    exact ⟨_, h, if_pos rfl⟩

theorem Fits.stands {fs : List Field} {name : String} {value record : Json}
    (h : Fits fs name value record) : Stands fs name value record := by
  cases h with
  | member members hformed hvalue hothers =>
      refine .member members hformed (mem_valuesOf.mp ?_)
      rw [hvalue]
      exact List.mem_singleton_self value
  | item items i hname hvalue hlength hothers => exact .item items i hname hvalue

/-! ## One field of many -/

section Pick

variable {front : List Field} {f : Field} {back : List Field} {members : List (String × Json)}
  {title : String} {value record : Json}

/-- The value of a field with so many in front of it. -/
def Values.pick : (front : List Field) → Values (front ++ f :: back) → f.Value
  | [], (x, _) => x
  | _ :: front, (_, xs) => pick front xs

theorem Taken.pick {xs : Values (front ++ f :: back)} (h : Taken members (front ++ f :: back) xs) :
    f.Takes members (xs.pick front) := by
  induction front with
  | nil =>
      obtain ⟨x, xs⟩ := xs
      exact h.1
  | cons g front ih =>
      obtain ⟨x, xs⟩ := xs
      exact ih h.2

theorem exists_taken {fs : List Field} (h : ∀ f ∈ fs, ∃ x, f.Takes members x) :
    ∃ xs, Taken members fs xs := by
  induction fs with
  | nil => exact ⟨(), trivial⟩
  | cons f fs ih =>
      obtain ⟨x, hx⟩ := h f List.mem_cons_self
      obtain ⟨xs, hxs⟩ := ih fun g hg => h g (List.mem_cons_of_mem _ hg)
      exact ⟨(x, xs), hx, hxs⟩

theorem of_readItems_eq_ok {total present : Nat} {fs : List Field} {j : Json} {js : List Json}
    {xs : Values (f :: fs)} (h : readItems title total present (f :: fs) (j :: js) = .ok xs) :
    f.read j = .ok xs.1 ∧ readItems title total (present + 1) fs js = .ok xs.2 := by
  rw [readItems_step] at h
  cases hread : f.read j with
  | error fault =>
      rw [hread] at h
      cases h
  | ok x =>
      rw [hread] at h
      cases hrest : readItems title total (present + 1) fs js with
      | error fault =>
          rw [hrest] at h
          cases h
      | ok ys =>
          rw [hrest] at h
          obtain rfl := Except.ok.inj h
          exact ⟨rfl, rfl⟩

theorem readItems_pick {total present : Nat} {items : List Json} {xs : Values (front ++ f :: back)}
    (h : readItems title total present (front ++ f :: back) items = .ok xs)
    (hvalue : items[front.length]? = some value) : f.read value = .ok (xs.pick front) := by
  induction front generalizing present items with
  | nil =>
      cases items with
      | nil => cases hvalue
      | cons j items =>
          obtain rfl : j = value := Option.some.inj hvalue
          exact (of_readItems_eq_ok h).1
  | cons g front ih =>
      cases items with
      | nil => cases hvalue
      | cons j items => exact ih (of_readItems_eq_ok h).2 hvalue

theorem exists_readItems {total present : Nat} {fs : List Field} {items : List Json}
    (hlength : items.length ≤ fs.length)
    (h : ∀ (k : Nat) (f : Field), fs[k]? = some f →
      (∃ j x, items[k]? = some j ∧ f.read j = .ok x) ∨ items[k]? = none ∧ f.absent ≠ none) :
    ∃ xs, readItems title total present fs items = .ok xs := by
  induction fs generalizing present items with
  | nil =>
      obtain rfl := List.length_eq_zero_iff.mp (Nat.le_zero.mp hlength)
      exact ⟨(), rfl⟩
  | cons f fs ih =>
      have hrest := fun (k : Nat) (g : Field) (hg : fs[k]? = some g) => h (k + 1) g hg
      cases items with
      | nil =>
          obtain ⟨xs, hxs⟩ := @ih present [] (Nat.zero_le _) hrest
          rcases h 0 f rfl with ⟨j, x, hj, -⟩ | ⟨-, habsent⟩
          · cases hj
          · obtain ⟨x, hx⟩ := Option.ne_none_iff_exists'.mp habsent
            refine ⟨(x, xs), ?_⟩
            rw [readItems, hx]
            dsimp only
            rw [hxs]
            rfl
      | cons j items =>
          obtain ⟨xs, hxs⟩ := @ih (present + 1) items (Nat.le_of_succ_le_succ hlength) hrest
          rcases h 0 f rfl with ⟨j', x, hj, hx⟩ | ⟨hnone, -⟩
          · obtain rfl : j = j' := Option.some.inj hj
            exact ⟨(x, xs), by rw [readItems_step, hx, hxs]; rfl⟩
          · cases hnone

variable (hnames : ((front ++ f :: back).map Field.name).Nodup)

include hnames

/-- A name stands for one field only. -/
theorem eq_of_name {g : Field} (hg : g ∈ front ++ f :: back) (hname : g.name = f.name) : g = f :=
  List.inj_on_of_nodup_map hnames hg (by simp) hname

theorem eq_length_of_name {i : Nat} (h : (front ++ f :: back)[i]?.map Field.name = some f.name) :
    i = front.length := by
  have hf : ((front ++ f :: back).map Field.name)[front.length]? = some f.name := by simp
  rw [← List.getElem?_map] at h
  obtain ⟨hi, -⟩ := List.getElem?_eq_some_iff.mp h
  exact (List.getElem?_inj hi hnames).mp (h.trans hf.symm)

/-- Whatever is read, the field takes the value that stands in its place. -/
theorem Stands.read_pick {xs : Values (front ++ f :: back)}
    (h : Stands (front ++ f :: back) f.name value record)
    (hok : readRecord title (front ++ f :: back) record = .ok xs) :
    f.read value = .ok (xs.pick front) := by
  cases h with
  | member members hformed hvalue =>
      have htaken := (readRecord_eq_ok_iff title hnames hformed).mp hok
      have hmem := mem_valuesOf.mpr hvalue
      rcases htaken.pick with ⟨j, hj, hread⟩ | ⟨hnone, -⟩
      · rw [hj, List.mem_singleton] at hmem
        rw [hmem, hread]
      · rw [hnone] at hmem
        cases hmem
  | item items i hname hvalue =>
      rw [eq_length_of_name hnames hname] at hvalue
      exact readItems_pick hok hvalue

/-- A value that fits and reads as that of its field is all that it takes. -/
theorem Fits.exists_readRecord (title : String) {x : f.Value}
    (h : Fits (front ++ f :: back) f.name value record) (hread : f.read value = .ok x) :
    ∃ xs, readRecord title (front ++ f :: back) record = .ok xs := by
  cases h with
  | member members hformed hvalue hothers =>
      obtain ⟨xs, hxs⟩ : ∃ xs, Taken members (front ++ f :: back) xs := by
        refine exists_taken fun g hg => ?_
        by_cases hname : g.name = f.name
        · obtain rfl := eq_of_name hnames hg hname
          exact ⟨x, .inl ⟨value, hvalue, hread⟩⟩
        · exact hothers g hg hname
      exact ⟨xs, (readRecord_eq_ok_iff title hnames hformed).mpr hxs⟩
  | item items i hname hvalue hlength hothers =>
      refine exists_readItems hlength fun k g hg => ?_
      by_cases hsame : g.name = f.name
      · have hk : k = i := by
          rw [eq_length_of_name hnames hname]
          exact eq_length_of_name hnames (by rw [hg, Option.map_some, hsame])
        obtain rfl := eq_of_name hnames (List.mem_of_getElem? hg) hsame
        exact .inl ⟨value, x, by rw [hk, hvalue], hread⟩
      · exact hothers k g hg hsame

end Pick

/-! ## Words -/

theorem exists_error {α : Type} {outcome : Outcome α} (h : ∀ a, outcome ≠ .ok a) :
    ∃ fault, outcome = .error fault := by
  cases outcome with
  | error fault => exact ⟨fault, rfl⟩
  | ok a => exact absurd rfl (h a)

/-- The words that a number is read as: the one that it spells, if there is one. -/
def ReadsNat {β : Type} (read : Json → Outcome β) (width : Nat) (toNat : β → Nat) : Prop :=
  ∀ (l : Literal) (n : Nat),
    (∃ x, read (.num l) = .ok x ∧ toNat x = n) ↔ l = .ofInt n ∧ n < 2 ^ width

theorem readsNat_of_readNat {β : Type} {width : Nat} {ofNat : Nat → β} {toNat : β → Nat}
    (hwidth : width ≤ 64) (hback : ∀ n < 2 ^ width, toNat (ofNat n) = n) :
    ReadsNat (fun j => (readNat width j).map ofNat) width toNat := by
  intro l n
  have hnum : readNat width (.num l) = .ok n ↔ l = .ofInt n ∧ n < 2 ^ width := by
    rw [readNat_eq_ok_iff hwidth, Json.num.injEq]
  rw [← hnum]
  constructor
  · rintro ⟨x, hx, rfl⟩
    obtain ⟨m, hm, rfl⟩ := map_eq_ok_iff.mp hx
    rw [hback m ((readNat_eq_ok_iff hwidth).mp hm).2, hm]
  · intro h
    exact ⟨ofNat n, map_eq_ok_iff.mpr ⟨n, h, rfl⟩, hback n (hnum.mp h).2⟩

theorem readsNat_readUInt64 : ReadsNat readUInt64 64 UInt64.toNat :=
  readsNat_of_readNat (by decide) fun _ hn => UInt64.toNat_ofNat_of_lt hn

theorem readsNat_readUInt32 : ReadsNat readUInt32 32 UInt32.toNat :=
  readsNat_of_readNat (by decide) fun _ hn => UInt32.toNat_ofNat_of_lt hn

/-! ## Words of records -/

/-- How the word of a record is read from the number that stands in its place. -/
structure ReadsWord {α : Type} (read : Json → Outcome α) (fs : List Field) (name : String)
    (width : Nat) (word : α → Nat) : Prop where
  /-- A text is read as the record that it holds, -/
  text : ∀ text record, Holds text record → decode read text = read record
  /-- and the text of a record holds it. -/
  printed : ∀ record : Json, record.Printable → Holds record.print record
  /-- An integer within the range of the word is the word. -/
  within : ∀ record (n : Int), Fits fs name (.num (.ofInt n)) record → 0 ≤ n → n < 2 ^ width →
    ∃ a, read record = .ok a ∧ word a = n
  /-- Any other integer is refused. -/
  outside : ∀ record (n : Int), Stands fs name (.num (.ofInt n)) record → n < 0 ∨ 2 ^ width ≤ n →
    ∃ fault, read record = .error fault
  /-- So is a number with a point or an exponent and the negative zero, whatever the value. -/
  other : ∀ record (l : Literal), Stands fs name (.num l) record →
    l.fraction ≠ [] ∨ l.exponent ≠ none ∨ (l.negative = true ∧ l.whole = 0) →
    ∃ fault, read record = .error fault
  /-- Whatever is read, the number spells the word. -/
  spelt : ∀ record (l : Literal) a, Stands fs name (.num l) record → read record = .ok a →
    l = .ofInt (word a)

section Record

variable {α : Type} {read : Json → Outcome α} {title : String} (front : List Field) {f : Field}
  {back : List Field} {make : Values (front ++ f :: back) → α} {width : Nat}
  {toNat : f.Value → Nat} {word : α → Nat} (hnames : ((front ++ f :: back).map Field.name).Nodup)
  (hread : ∀ j, read j = (readRecord title (front ++ f :: back) j).map make)
  (hword : ∀ xs, word (make xs) = toNat (xs.pick front)) (hnat : ReadsNat f.read width toNat)

include hnames hread hword hnat

/-- The word is taken from its place, and only one literal is read as it. -/
theorem spelt_of_readRecord {record : Json} {l : Literal} {a : α}
    (hstands : Stands (front ++ f :: back) f.name (.num l) record) (hok : read record = .ok a) :
    l = .ofInt (word a) ∧ word a < 2 ^ width := by
  rw [hread] at hok
  obtain ⟨xs, hxs, rfl⟩ := map_eq_ok_iff.mp hok
  exact (hnat l _).mp ⟨_, hstands.read_pick hnames hxs, (hword xs).symm⟩

theorem readsWord_of_readRecord : ReadsWord read (front ++ f :: back) f.name width word := by
  have hspelt : ∀ {record : Json} {l : Literal} {a : α},
      Stands (front ++ f :: back) f.name (.num l) record → read record = .ok a →
        l = .ofInt (word a) ∧ word a < 2 ^ width :=
    spelt_of_readRecord front hnames hread hword hnat
  refine ⟨fun text record htext => htext.decode_eq read, fun record => holds_print, ?_, ?_, ?_, ?_⟩
  · intro record n hfits hlow hhigh
    obtain ⟨m, rfl⟩ := Int.eq_ofNat_of_zero_le hlow
    obtain ⟨x, hx, -⟩ := (hnat (.ofInt m) m).mpr ⟨rfl, by exact_mod_cast hhigh⟩
    obtain ⟨xs, hxs⟩ := hfits.exists_readRecord hnames title hx
    have hok : read record = .ok (make xs) := by rw [hread, map_eq_ok_iff.mpr ⟨xs, hxs, rfl⟩]
    exact ⟨make xs, hok, (ofInt_inj (hspelt hfits.stands hok).1).symm⟩
  · intro record n hstands hout
    refine exists_error fun a hok => ?_
    obtain ⟨hn, hlt⟩ := hspelt hstands hok
    have hlt : (word a : Int) < 2 ^ width := by exact_mod_cast hlt
    rw [ofInt_inj hn] at hout
    omega
  · intro record l hstands hother
    refine exists_error fun a hok => ?_
    have hinteger : l.integer? = none := if_pos hother
    rw [(hspelt hstands hok).1, integer?_ofInt] at hinteger
    cases hinteger
  · exact fun record l a hstands hok => (hspelt hstands hok).1

end Record

/-! ## Payload values -/

/-- An integer is written in decimal digits. -/
theorem print_ofInt (n : Int) : (Json.num (.ofInt n)).print = toString n := by
  apply String.toList_injective
  rw [Json.print, String.toList_ofList]
  show (Literal.ofInt n).text = _
  cases n with
  | ofNat m =>
      show _ = (Nat.repr m).toList
      simp [Literal.text, Literal.ofInt, Literal.exponentText]
  | negSucc m =>
      have hneg : Int.negSucc m < 0 := Int.negSucc_lt_zero m
      show _ = ("-" ++ Nat.repr (m + 1)).toList
      simp [Literal.text, Literal.ofInt, Literal.exponentText, hneg]

theorem readValueWithin_int (room : Nat) {n : Int} (hlow : -2 ^ 63 ≤ n) (hhigh : n < 2 ^ 63) :
    ∃ m : Int64, readValueWithin room (.num (.ofInt n)) = .ok (.int m) ∧ m.toInt = n := by
  refine ⟨Int64.ofInt n, readValueWithin_eq_ok ?_, Int64.toInt_ofInt_of_le hlow hhigh⟩
  rw [readTree_num, integer?_ofInt]
  exact if_pos ⟨hlow, hhigh⟩

theorem readTree_large (room : Nat) {n : Int} (h : n < -2 ^ 63 ∨ 2 ^ 63 ≤ n) :
    readTree room (.num (.ofInt n)) = ranged ((Literal.ofInt n).toBinary64?.map Tree.float) := by
  rw [readTree_num, integer?_ofInt]
  exact if_neg (by omega)

theorem readValueWithin_float (room : Nat) {n : Int} (h : n < -2 ^ 63 ∨ 2 ^ 63 ≤ n)
    (hrange : n.natAbs < Binary64.limit) : ∃ x, readValueWithin room (.num (.ofInt n)) =
      .ok (.float x) ∧ (Literal.ofInt n).toBinary64? = some x := by
  obtain ⟨x, hx⟩ := Literal.exists_toBinary64? ((Literal.inRange_ofInt n).mpr hrange)
  refine ⟨x, readValueWithin_eq_ok ?_, hx⟩
  rw [readTree_large room h, hx]
  rfl

theorem readValueWithin_beyond (room : Nat) {n : Int} (h : Binary64.limit ≤ n.natAbs) :
    readValueWithin room (.num (.ofInt n)) = .error (.broken (b := .beyondRange)) := by
  have hlimit : 2 ^ 64 ≤ Binary64.limit := by decide +kernel
  have hnone : (Literal.ofInt n).toBinary64? = none := by
    rw [Literal.toBinary64?_eq_none_iff, Literal.inRange_ofInt]
    exact Nat.not_lt.mpr h
  refine readValueWithin_eq_error ?_
  rw [readTree_large room (by omega), hnone]
  rfl

/-- **Numbers are read whole.** The number of a hosted id, that of an event and the version of a
flow are read from integers within their ranges, in either form of the record, and as these very
integers; any other number there is refused.  As a payload value an integer stays what it is if it
is a signed word, and is never taken for another: it becomes a floating-point number, or breaks the
text if it is beyond those.  Whatever its size, its text are its decimal digits. -/
theorem numbers_read_whole :
    ReadsWord readHostId hostIdFields "id" 64 (fun h => h.number.toNat) ∧
    ReadsWord readEvent eventFields "id" 64 (fun e => e.id.toNat) ∧
    ReadsWord readFlow flowFields "ver" 32 (fun f => f.version.toNat) ∧
    (∀ n : Int, (Json.num (.ofInt n)).print = toString n ∧ Holds (toString n) (.num (.ofInt n))) ∧
    (∀ text j, Holds text j → decode readValue text = readValueWithin maxDepth j) ∧
    ∀ (room : Nat) (n : Int),
      (-2 ^ 63 ≤ n → n < 2 ^ 63 →
        ∃ m : Int64, readValueWithin room (.num (.ofInt n)) = .ok (.int m) ∧ m.toInt = n) ∧
      (n < -2 ^ 63 ∨ 2 ^ 63 ≤ n → n.natAbs < Binary64.limit →
        ∃ x, readValueWithin room (.num (.ofInt n)) = .ok (.float x) ∧
          (Literal.ofInt n).toBinary64? = some x) ∧
      (Binary64.limit ≤ n.natAbs →
        readValueWithin room (.num (.ofInt n)) = .error (.broken (b := .beyondRange))) := by
  refine ⟨?_, ?_, ?_, ?_, fun text j htext => htext.decode_eq readValue,
    fun room n => ⟨?_, ?_, ?_⟩⟩
  · exact readsWord_of_readRecord [.required "host" readString] (by decide)
      readHostId_eq (fun _ => rfl) readsNat_readUInt64
  · exact readsWord_of_readRecord [.required "run_ref" readRun,
      .required "source_node" readNode, .required "tag" readString, .required "good" readBool]
      (by decide) readEvent_eq (fun _ => rfl) readsNat_readUInt64
  · exact readsWord_of_readRecord [.required "id" readString] (by decide)
      readFlow_eq (fun _ => rfl) readsNat_readUInt32
  · intro n
    rw [← print_ofInt n]
    exact ⟨rfl, holds_print trivial⟩
  · exact readValueWithin_int room
  · exact readValueWithin_float room
  · exact readValueWithin_beyond room

/-- A hosted id with the greatest number. -/
def greatest : Json :=
  .arr [.str "h1", .num (.ofInt 18446744073709551615)]

/-- A flow version one above the greatest. -/
def beyond : Json :=
  .ofMembers [("ver", .num (.ofInt 4294967296)), ("id", .str "build")]

/-- The texts of both, and that of an integer one above the signed words. -/
theorem numbers_read_whole_limits :
    (∃ h, decode readHostId "[\"h1\",18446744073709551615]" = .ok h ∧
      h.number.toNat = (18446744073709551615 : Int)) ∧
    (∃ fault, decode readFlow "\x7b\"ver\":4294967296,\"id\":\"build\"\x7d" = .error fault) ∧
    ∃ x, decode readValue "9223372036854775808" = .ok (.float x) ∧
      (Literal.ofInt 9223372036854775808).toBinary64? = some x := by
  obtain ⟨hid, -, hflow, hdigits, htext, hvalue⟩ := numbers_read_whole
  refine ⟨?_, ?_, ?_⟩
  · have hholds : Holds greatest.print greatest := hid.printed greatest ⟨trivial, trivial, trivial⟩
    rw [show "[\"h1\",18446744073709551615]" = greatest.print from rfl, hid.text _ _ hholds]
    refine hid.within _ _ (.item _ 1 rfl rfl (Nat.le_refl _) ?_) (by decide) (by decide)
    rintro (_ | _ | k) f hf hname
    · obtain rfl := Option.some.inj hf
      exact .inl ⟨_, "h1", rfl, rfl⟩
    · obtain rfl := Option.some.inj hf
      exact absurd rfl hname
    · cases hf
  · have hholds : Holds beyond.print beyond :=
      hflow.printed beyond ⟨⟨_, rfl⟩, trivial, ⟨_, rfl⟩, trivial, trivial⟩
    rw [show "\x7b\"ver\":4294967296,\"id\":\"build\"\x7d" = beyond.print from rfl,
      hflow.text _ _ hholds]
    exact hflow.outside _ _ (.member _ (by decide) List.mem_cons_self) (.inr (by decide))
  · rw [show "9223372036854775808" = toString (9223372036854775808 : Int) from rfl,
      htext _ _ (hdigits 9223372036854775808).2]
    exact (hvalue maxDepth 9223372036854775808).2.1 (.inr (by decide)) (by decide +kernel)

end FlowEvents.Wire
