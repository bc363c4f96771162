/-
Records read back from objects. An object with some of a record's fields, each once and in any order,
gives the fields it has; one that has a field twice gives none. Numbers and names that were written are
read back as what they were.
-/
import Powerline.Json.Record
import Powerline.Proofs.Json.Values

namespace Powerline.Json

/-! ## Decimal numbers -/

/-- No number but zero has a zero in front. -/
theorem toDigits_zero_cons {n : Nat} {rest : List Char} (h : Nat.toDigits 10 n = '0' :: rest) :
    rest = [] := by
  induction n using Nat.strong_induction_on generalizing rest with
  | _ n ih =>
    rw [Nat.toDigits_eq_if (by decide)] at h
    split at h
    · exact (List.cons.inj h).2.symm
    · next hlarge =>
      obtain ⟨c, tail, htail⟩ := List.exists_cons_of_ne_nil (Nat.toDigits_ne_nil (n := n / 10) (b := 10))
      rw [htail, List.cons_append] at h
      obtain ⟨rfl, -⟩ := List.cons.inj h
      obtain rfl := ih (n / 10) (by omega) htail
      have hzero : n / 10 = 0 := by
        rw [← Nat.ofDigitChars_ten_toDigits (n := n / 10), htail]
        rfl
      omega

theorem all_isDigit_toDigits (n : Nat) : (Nat.toDigits 10 n).all Char.isDigit = true :=
  List.all_eq_true.2 fun _ hc => Nat.isDigit_of_mem_toDigits (by decide) (by decide) hc

theorem isNumber_toDigits (n : Nat) : isNumber (Nat.toDigits 10 n) = true := by
  have hall := all_isDigit_toDigits n
  obtain ⟨c, rest, h⟩ := List.exists_cons_of_ne_nil (Nat.toDigits_ne_nil (n := n) (b := 10))
  rw [h, List.all_cons, Bool.and_eq_true] at hall
  obtain ⟨hc, hrest⟩ := hall
  have hwhole : afterWhole (c :: rest) = some [] := by
    unfold afterWhole
    split
    · next heq => cases heq
    · next tail heq =>
      obtain ⟨rfl, rfl⟩ := List.cons.inj heq
      rw [toDigits_zero_cons h]
    · next heq =>
      obtain ⟨rfl, rfl⟩ := List.cons.inj heq
      rw [if_pos hc, List.dropWhile_eq_nil_iff.2 (List.all_eq_true.1 hrest)]
  rw [h]
  unfold isNumber
  split
  · next heq =>
    obtain ⟨rfl, -⟩ := List.cons.inj heq
    cases hc
  · simp only [hwhole]
    rfl

theorem toNat?_ofNat (n : Nat) : (ofNat n).toNat? = some n := by
  simp only [ofNat, toNat?, all_isDigit_toDigits, if_true, Nat.ofDigitChars_ten_toDigits]

/-- A number is read back from its digits if the field has room for it. -/
theorem toWord?_ofNat {bits n : Nat} (h : n < 2 ^ bits) : toWord? bits (ofNat n) = some n := by
  have hroom : 1 <<< bits = 2 ^ bits := by rw [Nat.shiftLeft_eq, Nat.one_mul]
  unfold toWord?
  rw [toNat?_ofNat, hroom]
  simpa using h

/-! ## Legible values -/

theorem legible_ofNat (n : Nat) : (ofNat n).Legible := by
  simp [Legible, ofNat, tokens, Token.Legible, isNumber_toDigits]

theorem legible_ofString (s : String) : (ofString s).Legible := by
  simp [Legible, ofString, tokens, Token.Legible]

theorem legible_bool (b : Bool) : (Json.bool b).Legible := by
  simp [Legible, tokens, Token.Legible]

theorem legible_null : Json.null.Legible := by
  simp [Legible, tokens, Token.Legible]

theorem legible_ofMembers (members : List (String × Json)) :
    (ofMembers members).Legible ↔ ∀ m ∈ members, m.2.Legible := by
  rw [ofMembers, legible_object, List.forall_mem_map]

/-! ## Fields of an object -/

/-- The value of an object's member, or null if it has none of that name. -/
def member (j : Json) (name : String) : Json :=
  match j with
  | .object members => (members.lookup (some name.toList)).getD .null
  | _ => .null

theorem Legible.member {j : Json} (h : j.Legible) (name : String) : (j.member name).Legible := by
  cases j with
  | object members =>
    simp only [Json.member]
    rcases hlookup : members.lookup (some name.toList) with _ | value
    · exact legible_null
    · obtain ⟨before, after, rfl, -⟩ := List.lookup_eq_some_iff.1 hlookup
      exact (legible_object _).1 h (some name.toList, value) (by simp)
  | _ => exact legible_null

section

variable {names : List String} {members : List (String × Json)}

theorem fields_ofMembers_cons (m : String × Json) (known : m.1 ∈ names) :
    (ofMembers (m :: members)).fields names =
      match (ofMembers members).fields names with
      | .error defect => .error defect
      | .ok fields => if fields.any (·.1 == m.1) then .error (.repeated m.1) else .ok (m :: fields) := by
  have hknown : (!names.contains m.1) = false := by simpa using known
  simp only [ofMembers, fields, List.map_cons, memberFields, String.ofList_toList, hknown]
  cases memberFields names (members.map fun m => (some m.1.toList, m.2)) <;> rfl

/-- The fields of an object are its members if all are fields, each once. -/
theorem fields_ofMembers (known : ∀ m ∈ members, m.1 ∈ names) (once : (members.map Prod.fst).Nodup) :
    (ofMembers members).fields names = .ok members := by
  induction members with
  | nil => rfl
  | cons m rest ih =>
    rw [List.map_cons, List.nodup_cons] at once
    have hnew : rest.any (·.1 == m.1) = false := by
      rw [List.any_eq_false]
      exact fun m' hm' heq => once.1 (List.mem_map.2 ⟨m', hm', beq_iff_eq.1 heq⟩)
    rw [fields_ofMembers_cons m (known m List.mem_cons_self),
      ih (fun m' hm' => known m' (List.mem_cons_of_mem _ hm')) once.2]
    simp only [hnew, Bool.false_eq_true, if_false]

/-- An object that has a field twice has none. -/
theorem fields_ofMembers_repeated (known : ∀ m ∈ members, m.1 ∈ names)
    (twice : ¬(members.map Prod.fst).Nodup) :
    ∃ key, (ofMembers members).fields names = .error (.repeated key) := by
  induction members with
  | nil => exact absurd List.nodup_nil twice
  | cons m rest ih =>
    have hrest : ∀ m' ∈ rest, m'.1 ∈ names := fun m' hm' => known m' (List.mem_cons_of_mem _ hm')
    rw [fields_ofMembers_cons m (known m List.mem_cons_self)]
    by_cases hnodup : (rest.map Prod.fst).Nodup
    · have hold : rest.any (·.1 == m.1) = true := by
        rw [List.map_cons, List.nodup_cons, not_and_or, not_not] at twice
        obtain ⟨m', hm', heq⟩ := List.mem_map.1 (twice.resolve_right (not_not.2 hnodup))
        exact List.any_eq_true.2 ⟨m', hm', beq_iff_eq.2 heq⟩
      rw [fields_ofMembers hrest hnodup]
      exact ⟨m.1, by simp only [hold, if_true]⟩
    · obtain ⟨key, hkey⟩ := ih hrest hnodup
      rw [hkey]
      exact ⟨key, rfl⟩

end

/-- Reading a field's value gives this. -/
def Reads {α : Type} (read : Json → Option α) (j : Json) (a : α) : Prop := read j = some a

/-- Members with these names, in this order. -/
def pick (value : String → Json) (given : List String) : List (String × Json) :=
  given.map fun name => (name, value name)

section

variable {value : String → Json} {given names : List String}

theorem map_fst_pick : (pick value given).map Prod.fst = given := by
  simp [pick, Function.comp_def]

theorem lookup_pick (name : String) :
    (pick value given).lookup name = if name ∈ given then some (value name) else none := by
  unfold pick
  induction given with
  | nil => rfl
  | cons first rest ih =>
    rw [List.map_cons, List.lookup_cons, ih]
    by_cases h : name = first
    · subst h
      simp
    · simp [h, beq_eq_false_iff_ne.2 h]

theorem name_mem_of_mem_pick {m : String × Json} (h : m ∈ pick value given) : m.1 ∈ given := by
  obtain ⟨name, hname, rfl⟩ := List.mem_map.1 h
  exact hname

theorem legible_pick (h : ∀ name, (value name).Legible) : (ofMembers (pick value given)).Legible := by
  refine (legible_ofMembers _).2 fun m hm => ?_
  obtain ⟨name, -, rfl⟩ := List.mem_map.1 hm
  exact h name

theorem fields_pick (known : given ⊆ names) (once : given.Nodup) :
    (ofMembers (pick value given)).fields names = .ok (pick value given) := by
  apply fields_ofMembers
  · exact fun m hm => known (name_mem_of_mem_pick hm)
  · rwa [map_fst_pick]

theorem fields_pick_repeated (known : given ⊆ names) (twice : ¬given.Nodup) :
    ∃ key, (ofMembers (pick value given)).fields names = .error (.repeated key) := by
  apply fields_ofMembers_repeated
  · exact fun m hm => known (name_mem_of_mem_pick hm)
  · rwa [map_fst_pick]

variable {α : Type} {read : Json → Option α} {name : String} {a : α}

/-- A field that is given is read, and has its default otherwise. -/
theorem field_pick (h : name ∈ given → Reads read (value name) a) (default : α) :
    field (pick value given) name read default = .ok (if name ∈ given then a else default) := by
  unfold field
  rw [lookup_pick]
  by_cases hgiven : name ∈ given
  · have hread : read (value name) = some a := h hgiven
    simp only [hgiven, if_true, hread]
  · simp only [hgiven, if_false]

theorem field_pick_of_none (h : read (value name) = none) (hgiven : name ∈ given) (default : α) :
    field (pick value given) name read default = .error (.badField name) := by
  unfold field
  rw [lookup_pick]
  simp only [hgiven, if_true, h]

end

/-! ## Kinds of fields -/

theorem reads_string (s : String) : Reads toString? (ofString s) s := by
  rw [Reads, ofString, toString?, String.ofList_toList]

/-- A number that a field has room for is read back from its digits. -/
theorem reads_word {α : Type} {bits : Nat} {toNat : α → Nat} {ofWord : Nat → α} {a : α}
    (room : toNat a < 2 ^ bits) (back : ofWord (toNat a) = a) :
    Reads (fun j => (toWord? bits j).map ofWord) (ofNat (toNat a)) a := by
  rw [Reads, toWord?_ofNat room, Option.map_some, back]

theorem reads_byte (n : UInt8) :
    Reads (fun j => (toWord? 8 j).map UInt8.ofNat) (ofNat n.toNat) n :=
  reads_word n.toNat_lt UInt8.ofNat_toNat

theorem reads_word32 (n : UInt32) :
    Reads (fun j => (toWord? 32 j).map UInt32.ofNat) (ofNat n.toNat) n :=
  reads_word n.toNat_lt UInt32.ofNat_toNat

theorem reads_word64 (n : UInt64) :
    Reads (fun j => (toWord? 64 j).map UInt64.ofNat) (ofNat n.toNat) n :=
  reads_word n.toNat_lt UInt64.ofNat_toNat

/-- A choice is read back from its name if no other has that name. -/
theorem reads_choice {α : Type} {name : α → String} {all : List α} {a : α} (mem : a ∈ all)
    (inj : ∀ b ∈ all, name b = name a → b = a) :
    Reads (toChoice? name all) (ofString (name a)) a := by
  simp only [Reads, toChoice?, ofString, named?, String.ofList_toList]
  rcases h : all.find? (fun b => name b == name a) with _ | b
  · exact absurd (beq_self_eq_true _) (List.find?_eq_none.1 h a mem)
  · have hname : (name b == name a) = true :=
      List.find?_some (p := fun b => name b == name a) h
    rw [inj b (List.mem_of_find?_eq_some h) (beq_iff_eq.1 hname)]

end Powerline.Json
