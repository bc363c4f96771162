/-
The listing of ports. It has one entry for each file of a USB device, and since files of one folder have
different keys, their order is that of the keys alone: neither the order in which the files are found
nor the one in which they are kept shows. The keys put ports with numbers behind their stems in the order
of the stems and numbers, as long as the numbers have room; one that has none counts as no number.
-/
import Powerline.Port.Basic
import Powerline.Proofs.Distinct
import Mathlib.Tactic
import Mathlib.Data.Prod.Lex
import Mathlib.Data.String.Basic

namespace Powerline.Port

/-! ## Keys as triples -/

/-- A key as a triple, of which the first component that differs decides. -/
def Key.triple (k : Key) : ℕ ×ₗ ℕ ×ₗ String := toLex (k.rank, toLex (k.number, k.base))

theorem Key.le_iff (a b : Key) : a.le b = true ↔ a.triple ≤ b.triple := by
  simp [Key.le, Key.triple, Prod.Lex.toLex_le_toLex]

theorem Key.triple_injective : Function.Injective Key.triple := by
  intro a b h
  cases a; cases b
  simp_all [Key.triple]

/-- What a port is ordered by. -/
def place (name : String) : ℕ ×ₗ ℕ ×ₗ String := (key name).triple

/-- The last part of a name, as text. -/
def baseText (name : String) : String := String.ofList (baseName name)

/-! ## Numbers -/

/-- Decimal digits, and the number they write. -/
def Digits (digits : List Char) (n : Nat) : Prop :=
  digits ≠ [] ∧ (∀ c ∈ digits, c.isDigit = true) ∧ Nat.ofDigitChars 10 digits 0 = n

/-- A text that is a decimal number, perhaps with zeros or a plus sign in front. -/
def Decimal (text : List Char) (n : Nat) : Prop :=
  Digits text n ∨ ∃ digits, text = '+' :: digits ∧ Digits digits n

theorem Digits.unique {digits : List Char} {n m : Nat} (h : Digits digits n) (h' : Digits digits m) :
    n = m := h.2.2.symm.trans h'.2.2

theorem not_digits_plus (rest : List Char) (n : Nat) : ¬Digits ('+' :: rest) n := by
  rintro ⟨-, hall, -⟩
  have hplus : '+'.isDigit = true := hall '+' List.mem_cons_self
  exact absurd hplus (by decide)

theorem decimal_plus_iff (rest : List Char) (n : Nat) : Decimal ('+' :: rest) n ↔ Digits rest n := by
  constructor
  · rintro (h | ⟨digits, heq, h⟩)
    · exact absurd h (not_digits_plus rest n)
    · obtain rfl := (List.cons.inj heq).2
      exact h
  · exact fun h => .inr ⟨rest, rfl, h⟩

theorem decimal_iff_of_ne {text : List Char} (h : ∀ rest, text ≠ '+' :: rest) (n : Nat) :
    Decimal text n ↔ Digits text n := by
  constructor
  · rintro (hdigits | ⟨digits, rfl, -⟩)
    · exact hdigits
    · exact absurd rfl (h digits)
  · exact .inl

theorem Decimal.unique {text : List Char} {n m : Nat} (h : Decimal text n) (h' : Decimal text m) :
    n = m := by
  by_cases hplus : ∃ rest, text = '+' :: rest
  · obtain ⟨rest, rfl⟩ := hplus
    rw [decimal_plus_iff] at h h'
    exact h.unique h'
  · rw [decimal_iff_of_ne (not_exists.1 hplus)] at h h'
    exact h.unique h'

/-- Digits are read if their number has room. -/
theorem read_digits_iff (digits : List Char) (n : Nat) :
    (if digits ≠ [] ∧ digits.all Char.isDigit then
      some (Nat.ofDigitChars 10 digits 0) |>.filter (· < 1 <<< 64) else none) = some n ↔
      Digits digits n ∧ n < 2 ^ 64 := by
  have hroom : (1 <<< 64 : Nat) = 2 ^ 64 := by decide
  unfold Digits
  rw [hroom, ← List.all_eq_true]
  split_ifs with h
  · obtain ⟨hne, hall⟩ := h
    simp only [Option.filter_eq_some_iff, Option.some.injEq, decide_eq_true_eq]
    constructor
    · rintro ⟨rfl, hlt⟩
      exact ⟨⟨hne, hall, rfl⟩, hlt⟩
    · rintro ⟨⟨-, -, rfl⟩, hlt⟩
      exact ⟨rfl, hlt⟩
  · constructor
    · rintro ⟨⟩
    · rintro ⟨⟨hne, hall, -⟩, -⟩
      exact absurd ⟨hne, hall⟩ h

/-- A number is read if it has room. -/
theorem number?_eq_some_iff (text : List Char) (n : Nat) :
    number? text = some n ↔ Decimal text n ∧ n < 2 ^ 64 := by
  by_cases hplus : ∃ rest, text = '+' :: rest
  · obtain ⟨rest, rfl⟩ := hplus
    rw [decimal_plus_iff]
    exact read_digits_iff rest n
  · rw [decimal_iff_of_ne (not_exists.1 hplus), ← read_digits_iff]
    simp only [number?]
    split
    · next rest => exact absurd ⟨rest, rfl⟩ hplus
    · rfl

/-! ## Stems -/

theorem numberAfter?_eq_some_iff (stem : String) (base : List Char) (n : Nat) :
    numberAfter? stem base = some n ↔
      ∃ text, base = stem.toList ++ text ∧ Decimal text n ∧ n < 2 ^ 64 := by
  unfold numberAfter?
  split_ifs with h
  · obtain ⟨text, rfl⟩ := List.isPrefixOf_iff_prefix.1 h
    rw [List.drop_left, number?_eq_some_iff]
    constructor
    · exact fun hnumber => ⟨text, rfl, hnumber⟩
    · rintro ⟨text', heq, hnumber⟩
      exact List.append_cancel_left heq ▸ hnumber
  · constructor
    · rintro ⟨⟩
    · rintro ⟨text, rfl, -⟩
      exact absurd (List.isPrefixOf_iff_prefix.2 (List.prefix_append _ _)) h

/-- A name has the rank of a stem that it has with a number behind it, or of none. -/
theorem rankFrom_cases (base : List Char) (rank : Nat) (ss : List String) :
    (∃ i stem n, ss[i]? = some stem ∧ numberAfter? stem base = some n ∧
        rankFrom base rank ss = (rank + i, n)) ∨
      (∀ stem ∈ ss, numberAfter? stem base = none) ∧
        rankFrom base rank ss = (rank + ss.length, 0) := by
  induction ss generalizing rank with
  | nil => exact .inr ⟨by simp, rfl⟩
  | cons stem rest ih =>
    rcases hn : numberAfter? stem base with _ | n
    · simp only [rankFrom, hn]
      rcases ih (rank + 1) with ⟨i, stem', n, hstem, hnumber, heq⟩ | ⟨hnone, heq⟩
      · exact .inl ⟨i + 1, stem', n, hstem, hnumber, by rw [heq, Nat.add_assoc, Nat.add_comm 1]⟩
      · refine .inr ⟨?_, by rw [heq, List.length_cons, Nat.add_assoc, Nat.add_comm 1]⟩
        intro s hs
        rcases List.mem_cons.1 hs with rfl | hs
        · exact hn
        · exact hnone s hs
    · exact .inl ⟨0, stem, n, rfl, hn, by simp only [rankFrom, hn, Nat.add_zero]⟩

/-- No name has two of the stems. -/
theorem stem_unique {i j : Nat} {s t : String} {base : List Char} (hi : stems[i]? = some s)
    (hj : stems[j]? = some t) (hs : s.toList <+: base) (ht : t.toList <+: base) : i = j := by
  have hapart : ∀ k < 3, ∀ l < 3, ((stems.getD k "").toList.isPrefixOf (stems.getD l "").toList) →
      k = l := by decide
  have hbound : ∀ {k : Nat} {u : String}, stems[k]? = some u → k < 3 ∧ stems.getD k "" = u := by
    intro k u hk
    exact ⟨(List.getElem?_eq_some_iff.1 hk).1, by rw [List.getD_eq_getElem?_getD, hk]; rfl⟩
  obtain ⟨hi3, hsi⟩ := hbound hi
  obtain ⟨hj3, htj⟩ := hbound hj
  rcases List.prefix_or_prefix_of_prefix hs ht with h | h
  · exact hapart i hi3 j hj3 (by rw [hsi, htj]; exact List.isPrefixOf_iff_prefix.2 h)
  · exact (hapart j hj3 i hi3 (by rw [hsi, htj]; exact List.isPrefixOf_iff_prefix.2 h)).symm

/-- A name with the stem of a rank and a decimal number behind it, which may have any size. -/
def Numbered (rank : Nat) (name : String) (n : Nat) : Prop :=
  ∃ stem text, stems[rank]? = some stem ∧ baseName name = stem.toList ++ text ∧ Decimal text n

theorem Numbered.unique {rank rank' n n' : Nat} {name : String} (h : Numbered rank name n)
    (h' : Numbered rank' name n') : rank = rank' ∧ n = n' := by
  obtain ⟨stem, text, hstem, hbase, hdecimal⟩ := h
  obtain ⟨stem', text', hstem', hbase', hdecimal'⟩ := h'
  obtain rfl : rank = rank' :=
    stem_unique hstem hstem' (hbase ▸ List.prefix_append _ _) (hbase' ▸ List.prefix_append _ _)
  obtain rfl : stem = stem' := Option.some.inj (hstem.symm.trans hstem')
  rw [List.append_cancel_left (hbase.symm.trans hbase')] at hdecimal
  exact ⟨rfl, hdecimal.unique hdecimal'⟩

/-- A name has the key of its stem and number if the number has room. -/
theorem key_cases (name : String) :
    (∃ rank n, Numbered rank name n ∧ n < 2 ^ 64 ∧ key name = ⟨rank, n, baseText name⟩) ∨
      (∀ rank n, Numbered rank name n → 2 ^ 64 ≤ n) ∧ key name = ⟨3, 0, baseText name⟩ := by
  rcases rankFrom_cases (baseName name) 0 stems with ⟨i, stem, n, hstem, hnumber, heq⟩ | ⟨hnone, heq⟩
  · obtain ⟨text, hbase, hdecimal, hroom⟩ := (numberAfter?_eq_some_iff _ _ _).1 hnumber
    refine .inl ⟨i, n, ⟨stem, text, hstem, hbase, hdecimal⟩, hroom, ?_⟩
    simp only [key, heq, Nat.zero_add]
    rfl
  · refine .inr ⟨?_, by simp only [key, heq]; rfl⟩
    rintro rank n ⟨stem, text, hstem, hbase, hdecimal⟩
    by_contra hroom
    have hnumber := (numberAfter?_eq_some_iff _ _ _).2 ⟨text, hbase, hdecimal, Nat.lt_of_not_le hroom⟩
    rw [hnone stem (List.mem_of_getElem? hstem)] at hnumber
    cases hnumber

theorem key_of_numbered {rank n : Nat} {name : String} (h : Numbered rank name n) :
    key name = if n < 2 ^ 64 then ⟨rank, n, baseText name⟩ else ⟨3, 0, baseText name⟩ := by
  rcases key_cases name with ⟨rank', n', h', hroom, heq⟩ | ⟨hlarge, heq⟩
  · obtain ⟨rfl, rfl⟩ := h.unique h'
    rw [if_pos hroom, heq]
  · rw [if_neg (Nat.not_lt.2 (hlarge rank n h)), heq]

theorem key_of_unnumbered {name : String} (h : ∀ rank n, ¬Numbered rank name n) :
    key name = ⟨3, 0, baseText name⟩ := by
  rcases key_cases name with ⟨rank, n, hnumbered, -⟩ | ⟨-, heq⟩
  · exact absurd hnumbered (h rank n)
  · exact heq

theorem Numbered.rank_lt {rank n : Nat} {name : String} (h : Numbered rank name n) : rank < 3 := by
  obtain ⟨stem, -, hstem, -⟩ := h
  exact (List.getElem?_eq_some_iff.1 hstem).1

/-! ## The order -/

theorem place_lt_iff (a b : String) :
    place a < place b ↔ (key a).rank < (key b).rank ∨ (key a).rank = (key b).rank ∧
      ((key a).number < (key b).number ∨
        (key a).number = (key b).number ∧ (key a).base < (key b).base) := by
  simp only [place, Key.triple, Prod.Lex.toLex_lt_toLex]

/-- A port comes before one with a later stem, unless its own number has no room: then it does only if
the other's has none either and its name is first. -/
theorem place_lt_of_stems {a b : String} {i j n m : Nat} (ha : Numbered i a n) (hb : Numbered j b m)
    (h : i < j) : place a < place b ↔ n < 2 ^ 64 ∨ 2 ^ 64 ≤ m ∧ baseText a < baseText b := by
  have hi := ha.rank_lt
  have hj := hb.rank_lt
  rw [place_lt_iff, key_of_numbered ha, key_of_numbered hb]
  by_cases hn : n < 2 ^ 64 <;> by_cases hm : m < 2 ^ 64 <;>
    simp only [hn, hm, if_true, if_false, lt_self_iff_false, false_or, true_and, true_or, iff_true,
      Nat.le_of_not_lt, not_false_eq_true]
  · exact .inl h
  · exact .inl hi
  · simp only [Nat.not_le.2 hm, false_and, iff_false]
    omega

/-- A port comes before a name without a number, unless its own has no room: then the names decide. -/
theorem place_lt_of_unnumbered {a b : String} {i n : Nat} (ha : Numbered i a n)
    (hb : ∀ rank m, ¬Numbered rank b m) :
    place a < place b ↔ n < 2 ^ 64 ∨ baseText a < baseText b := by
  have hi := ha.rank_lt
  rw [place_lt_iff, key_of_numbered ha, key_of_unnumbered hb]
  by_cases hn : n < 2 ^ 64
  · simp only [hn, if_true, true_or, iff_true]
    exact .inl hi
  · simp only [hn, if_false, lt_self_iff_false, false_or, true_and]

/-- Ports with one stem come in the order of their numbers, whatever their digits, and of their names
if the numbers are the same. -/
theorem place_lt_of_numbers {a b : String} {i n m : Nat} (ha : Numbered i a n) (hb : Numbered i b m)
    (hn : n < 2 ^ 64) (hm : m < 2 ^ 64) :
    place a < place b ↔ n < m ∨ n = m ∧ baseText a < baseText b := by
  rw [place_lt_iff, key_of_numbered ha, key_of_numbered hb, if_pos hn, if_pos hm]
  simp

/-! ## Names of files -/

/-- The last part of a file's path is the file's name. -/
theorem baseName_file {file : String} (h : '/' ∉ file.toList) :
    baseName ("/dev/" ++ file) = file.toList := by
  have hfolder : "/dev/".toList = ['/', 'd', 'e', 'v', '/'] := by decide
  have hall : ∀ c ∈ file.toList.reverse, decide (c ≠ '/') = true := by
    intro c hc
    rw [List.mem_reverse] at hc
    exact decide_eq_true fun heq => h (heq ▸ hc)
  unfold baseName
  rw [String.toList_append, List.reverse_append, List.takeWhile_append_of_pos hall, hfolder]
  simp

/-- So files of one folder are told apart by their keys. -/
theorem file_eq_of_place {file file' : String} (h : '/' ∉ file.toList) (h' : '/' ∉ file'.toList)
    (same : place ("/dev/" ++ file) = place ("/dev/" ++ file')) : file = file' := by
  have hkey : key ("/dev/" ++ file) = key ("/dev/" ++ file') := Key.triple_injective same
  have hbase : baseText ("/dev/" ++ file) = baseText ("/dev/" ++ file') := congrArg Key.base hkey
  unfold baseText at hbase
  rw [baseName_file h, baseName_file h', String.ofList_toList, String.ofList_toList] at hbase
  exact hbase

/-! ## The listing -/

theorem isUsbName_iff (file : String) :
    isUsbName file = true ↔ "ttyUSB".toList <+: file.toList ∨ "ttyACM".toList <+: file.toList := by
  simp only [isUsbName, List.any_cons, List.any_nil, Bool.or_false, Bool.or_eq_true,
    List.isPrefixOf_iff_prefix]

/-- The paths of the files that are ports of USB devices, each once. -/
def paths (names : List String) : List String :=
  ((names.filter isUsbName).map ("/dev/" ++ ·)).eraseDups

theorem mem_paths {names : List String} {path : String} :
    path ∈ paths names ↔ ∃ file ∈ names, isUsbName file = true ∧ path = "/dev/" ++ file := by
  unfold paths
  rw [List.mem_eraseDups, List.mem_map]
  constructor
  · rintro ⟨file, hfile, rfl⟩
    obtain ⟨hmem, husb⟩ := List.mem_filter.1 hfile
    exact ⟨file, hmem, husb, rfl⟩
  · rintro ⟨file, hmem, husb, rfl⟩
    exact ⟨file, List.mem_filter.2 ⟨hmem, husb⟩, rfl⟩

theorem nodup_paths (names : List String) : (paths names).Nodup := nodup_eraseDups _

theorem place_injOn_paths {names : List String} (files : ∀ file ∈ names, '/' ∉ file.toList) :
    ∀ a ∈ paths names, ∀ b ∈ paths names, place a = place b → a = b := by
  intro a ha b hb same
  obtain ⟨file, hfile, -, rfl⟩ := mem_paths.1 ha
  obtain ⟨file', hfile', -, rfl⟩ := mem_paths.1 hb
  rw [file_eq_of_place (files file hfile) (files file' hfile') same]

theorem listing_eq (names : List String) :
    listing names = (sortNames (paths names)).map fun name => { name } := rfl

theorem sortNames_perm (names : List String) : (sortNames names).Perm names :=
  List.mergeSort_perm _ _

theorem sortNames_sorted (names : List String) :
    (sortNames names).Pairwise fun a b => place a ≤ place b := by
  have htrans : ∀ a b c : String, (key a).le (key b) → (key b).le (key c) → (key a).le (key c) := by
    intro a b c hab hbc
    rw [Key.le_iff] at *
    exact hab.trans hbc
  have htotal : ∀ a b : String, ((key a).le (key b) || (key b).le (key a)) = true := by
    intro a b
    rw [Bool.or_eq_true, Key.le_iff, Key.le_iff]
    exact le_total _ _
  exact (List.pairwise_mergeSort htrans htotal names).imp fun h => (Key.le_iff _ _).1 h

/-- Names that are in strict order are what they are sorted to from any arrangement. -/
theorem sortNames_eq {held found : List String} (h : held.Perm found)
    (sorted : found.Pairwise fun a b => place a < place b) : sortNames held = found := by
  have hplaces : (found.map place).Nodup := List.pairwise_map.2 (sorted.imp ne_of_lt)
  refine List.Perm.eq_of_pairwise ?_ (sortNames_sorted held) (sorted.imp le_of_lt)
    ((sortNames_perm held).trans h)
  intro a b ha hb hab hba
  have ha' : a ∈ found := ((sortNames_perm held).trans h).mem_iff.1 ha
  exact List.inj_on_of_nodup_map hplaces ha' hb (le_antisymm hab hba)

/-- The names of a listing are in strict order. -/
theorem sortNames_paths_sorted {names : List String} (files : ∀ file ∈ names, '/' ∉ file.toList) :
    (sortNames (paths names)).Pairwise fun a b => place a < place b := by
  have hperm := sortNames_perm (paths names)
  have hnodup : (sortNames (paths names)).Nodup := hperm.nodup_iff.2 (nodup_paths names)
  refine ((sortNames_sorted (paths names)).and hnodup).imp_of_mem ?_
  rintro a b ha hb ⟨hle, hne⟩
  exact lt_of_le_of_ne hle fun same =>
    hne (place_injOn_paths files a (hperm.mem_iff.1 ha) b (hperm.mem_iff.1 hb) same)

/-- So a listing is known by its names and their order. -/
theorem listing_eq_of_sorted {names found : List String}
    (sorted : found.Pairwise fun a b => place a < place b)
    (mem : ∀ path, path ∈ found ↔ path ∈ paths names) :
    listing names = found.map fun name => { name } := by
  have hnodup : found.Nodup := by
    apply sorted.imp
    rintro a b hlt rfl
    exact lt_irrefl _ hlt
  have hperm := (List.perm_ext_iff_of_nodup (nodup_paths names) hnodup).2 fun path => (mem path).symm
  rw [listing_eq, sortNames_eq hperm sorted]

/-- A listing has one port for each file of a USB device. They are in the order of their keys, which
the order of the files does not change, nor that in which the ports are held. Ports come in the order
of their stems and, with one stem, of their numbers as far as those have room; a port whose number has
none is among the names without number, which come last. -/
theorem listing_canonical {names : List String} (files : ∀ file ∈ names, '/' ∉ file.toList) :
    (∃ found : List String, listing names = found.map (fun name => { name }) ∧
      found.Pairwise (fun a b => place a < place b) ∧
      (∀ path, path ∈ found ↔ ∃ file ∈ names,
        ("ttyUSB".toList <+: file.toList ∨ "ttyACM".toList <+: file.toList) ∧ path = "/dev/" ++ file) ∧
      (∀ held, held.Perm found → sortNames held = found) ∧
      ∀ names' : List String, (∀ file, file ∈ names' ↔ file ∈ names) → listing names' = listing names) ∧
    ∀ a b i n, Numbered i a n →
      (∀ j m, i < j → Numbered j b m →
        (place a < place b ↔ n < 2 ^ 64 ∨ 2 ^ 64 ≤ m ∧ baseText a < baseText b)) ∧
      ((∀ j m, ¬Numbered j b m) → (place a < place b ↔ n < 2 ^ 64 ∨ baseText a < baseText b)) ∧
      ∀ m, Numbered i b m → n < 2 ^ 64 → m < 2 ^ 64 →
        (place a < place b ↔ n < m ∨ n = m ∧ baseText a < baseText b) := by
  constructor
  · have hsorted := sortNames_paths_sorted files
    refine ⟨sortNames (paths names), listing_eq names, hsorted, ?_, ?_, ?_⟩
    · intro path
      simp only [(sortNames_perm _).mem_iff, mem_paths, isUsbName_iff]
    · exact fun held hperm => sortNames_eq hperm hsorted
    · intro names' same
      rw [listing_eq names]
      refine listing_eq_of_sorted hsorted fun path => ?_
      simp only [(sortNames_perm _).mem_iff, mem_paths, same]
  · intro a b i n ha
    exact ⟨fun j m hij hb => place_lt_of_stems ha hb hij, place_lt_of_unnumbered ha,
      fun m hb => place_lt_of_numbers ha hb⟩

theorem listing_canonical_threeFiles :
    (∀ file ∈ ["ttyUSB10", "ttyS0", "ttyUSB9"], '/' ∉ file.toList) ∧
      ∀ names : List String, (∀ file, file ∈ names ↔ file ∈ ["ttyUSB10", "ttyS0", "ttyUSB9"]) →
        listing names = listing ["ttyUSB10", "ttyS0", "ttyUSB9"] := by
  have hfiles : ∀ file ∈ ["ttyUSB10", "ttyS0", "ttyUSB9"], '/' ∉ file.toList := by decide
  obtain ⟨⟨found, -, -, -, -, hsame⟩, -⟩ := listing_canonical hfiles
  exact ⟨hfiles, hsame⟩

/-- A modem whose number has no room is listed behind an adapter. -/
theorem listing_withoutRoom :
    Numbered 0 "/dev/ttyACM18446744073709551616" (2 ^ 64) ∧ Numbered 1 "/dev/ttyUSB0" 0 ∧
      listing ["ttyACM18446744073709551616", "ttyUSB0"] =
        [{ name := "/dev/ttyUSB0" }, { name := "/dev/ttyACM18446744073709551616" }] := by
  have hmodem : Numbered 0 "/dev/ttyACM18446744073709551616" (2 ^ 64) :=
    ⟨"ttyACM", "18446744073709551616".toList, rfl, by decide,
      .inl ⟨by decide, List.all_eq_true.1 (by decide), rfl⟩⟩
  have hadapter : Numbered 1 "/dev/ttyUSB0" 0 :=
    ⟨"ttyUSB", ['0'], rfl, by decide, .inl ⟨by decide, List.all_eq_true.1 (by decide), rfl⟩⟩
  have hsorted : ["/dev/ttyUSB0", "/dev/ttyACM18446744073709551616"].Pairwise
      fun a b => place a < place b := by
    rw [List.pairwise_pair, place_lt_iff, key_of_numbered hadapter, key_of_numbered hmodem]
    decide
  have hpaths : paths ["ttyACM18446744073709551616", "ttyUSB0"] =
      ["/dev/ttyACM18446744073709551616", "/dev/ttyUSB0"] := by decide
  refine ⟨hmodem, hadapter, listing_eq_of_sorted hsorted fun path => ?_⟩
  rw [hpaths, List.mem_pair, List.mem_pair, or_comm]

end Powerline.Port
