import Dwpal.Lib.Layout
import Mathlib.Data.List.Induction
import Mathlib.Data.Nat.Bitwise

/-! The raw channel state information in `stats.c`: the words of the three chips, the matrix that
`parse_csi_matrix` makes of them, and the file that `dump_csi_parse_data_to_file` writes. -/

namespace Dwpal.Stats

open Stores

/-- An `int` of the raw data, and of the matrix. -/
abbrev CsiWord := BitVec 32

def csiRawDataSize : Nat := 788

/-- The type of a word. -/
def streamNum (i : CsiWord) : CsiWord := i.sshiftRight 24 &&& 15

def antNum (i : CsiWord) : CsiWord := i.sshiftRight 28 &&& 3

/-- A word with a type of its own, not with data of an antenna. -/
def isHeader (i : CsiWord) : Bool :=
  streamNum i = 10 ∨ streamNum i = 11 ∨ streamNum i = 12 ∨ streamNum i = 13 ∨ streamNum i = 14

/-- What is in a word with data. -/
def dataOf (i : CsiWord) : CsiWord := i &&& 16777215

/-- How a chip lays out its data: the words that are read, the entries of `ants_mat` and
`CSI_matrix`, the part of `ants_mat` for a word, the loops that arrange the matrix as pairs of the
entries of `CSI_matrix` and `ants_mat`, and the first two sizes of the matrix. -/
structure CsiChip where
  words : Nat
  size : Nat
  antenna : CsiWord → Nat
  arranged : List (Nat × Nat)
  rows : Nat
  columns : Nat

def wave700 : CsiChip where
  words := 197
  size := 192
  antenna _ := 0
  arranged := (List.range 48).flatMap fun k => (List.range 4).map fun i => (i + 4 * k, i + k * 4)
  rows := 4
  columns := 1

def wave600D2 : CsiChip where
  words := 245
  size := 240
  antenna _ := 0
  arranged := (List.range 48).flatMap fun k => (List.range 5).map fun i => (i + 5 * k, i + k * 5)
  rows := 5
  columns := 1

def wave600B0 : CsiChip where
  words := 784
  size := 768
  antenna i := (antNum i).toNat
  arranged := (List.range 4).flatMap fun k => (List.range 4).flatMap fun s =>
    (List.range 48).map fun i =>
    ((k + (s <<< 2)) + (i <<< 4), ((i <<< 2) + k) + 192 * s)
  rows := 4
  columns := 4

/-- The loop that separates the data for the antennas: the next entries, and the stores to
`ants_mat`. -/
structure CsiSeparated where
  indexDataArr : Nat → Nat
  antsMat : List (Store CsiWord)
  timeStamp1 : CsiWord
  timeStamp2 : CsiWord

/-- An `unsigned int` and one more, at most the largest one. -/
def nextIndex (q0 : Nat) : Nat :=
  if (q0 + 1) % 2 ^ 32 < q0 then 2 ^ 32 - 1 else (q0 + 1) % 2 ^ 32

namespace CsiChip

def separateStep (chip : CsiChip) (s : CsiSeparated) (i : CsiWord) : CsiSeparated :=
  if isHeader i then
    if streamNum i = 12 then { s with timeStamp1 := i &&& 65535 }
    else if streamNum i = 13 then { s with timeStamp2 := i &&& 16777215 }
    else s
  else
    { s with
      indexDataArr :=
        Function.update s.indexDataArr (chip.antenna i)
          (nextIndex (s.indexDataArr (chip.antenna i)))
      antsMat := s.antsMat ++
        [⟨s.indexDataArr (chip.antenna i) + 192 * chip.antenna i - 1, [dataOf i]⟩] }

/-- The words that are read. -/
def read (chip : CsiChip) (raw : Vector CsiWord csiRawDataSize) : List CsiWord :=
  raw.toList.take chip.words

def separate (chip : CsiChip) (raw : Vector CsiWord csiRawDataSize) : CsiSeparated :=
  (chip.read raw).foldl chip.separateStep ⟨fun _ => 1, [], 0, 0⟩

end CsiChip

/-- What `parse_csi_matrix` writes for its caller. -/
structure CsiOutput where
  data : Memory CsiWord
  size : Nat × Nat × Nat
  timeStamp1 : CsiWord
  timeStamp2 : CsiWord
  errorFlag : Bool

def chipType (raw : Vector CsiWord csiRawDataSize) : CsiWord :=
  if streamNum raw[0] = 10 then raw[0] &&& 3 else 0

def csiChip (chipType : CsiWord) : Option CsiChip :=
  if chipType = 3 then some wave700
  else if chipType = 2 then some wave600D2
  else if chipType = 1 then some wave600B0
  else none

/-- `error_flag` for a first word that no chip has. -/
def csiError (raw : Vector CsiWord csiRawDataSize) : Bool :=
  if streamNum raw[0] = 10 then chipType raw ≠ 1 ∧ chipType raw ≠ 2 ∧ chipType raw ≠ 3 else true

/-- `parse_csi_matrix`, where `calloc` says whether its buffers can be allocated; `none` where it
stores behind them. -/
def parseCsiMatrix (calloc : Bool) (raw : Vector CsiWord csiRawDataSize) (out : CsiOutput) :
    Option CsiOutput :=
  let out := { out with
    timeStamp1 := 0
    timeStamp2 := 0
    errorFlag := csiError raw }
  match csiChip (chipType raw) with
  | none => some out
  | some chip =>
    if calloc then
      let separated := chip.separate raw
      if separated.antsMat.all fun s => s.address < chip.size then
        let antsMat := runAll separated.antsMat fun _ => 0
        let csiMatrix := runAll (copies chip.arranged antsMat) fun _ => 0
        some { out with
          data := fun a => if a < chip.size then csiMatrix a else out.data a
          size := (chip.rows, chip.columns, 48)
          timeStamp1 := separated.timeStamp1
          timeStamp2 := separated.timeStamp2 }
      else none
    else some { out with errorFlag := true }

/-- `_sign_extend_2x12_to_2x16`. -/
def signExtend2x12To2x16 (in12BitNumbers : BitVec 32) : BitVec 32 :=
  let num1 : BitVec 16 := (in12BitNumbers >>> 0 &&& 0x000FFF).setWidth 16
  let num2 : BitVec 16 := (in12BitNumbers >>> 12 &&& 0x000FFF).setWidth 16
  let num1 := (num1 <<< 4).sshiftRight 4
  let num2 := (num2 <<< 4).sshiftRight 4
  num1.setWidth 32 ||| num2.setWidth 32 <<< 16

/-- What `dump_csi_parse_data_to_file` prints of what was parsed: the time stamp, and the lines of
the matrix for each subcarrier. -/
structure CsiDump where
  timeStamp : BitVec 64
  csiMatrix : List (List (List (BitVec 32)))

/-- An entry is printed if its antenna and its stream are active. -/
def dumpEntry (out : CsiOutput) (nrOf ncOf : UInt8) (nr nc : Nat) :
    StateM Nat (List (BitVec 32)) := do
  let z ← get
  set (z + 1)
  return if nr < nrOf.toNat ∧ nc < ncOf.toNat then [signExtend2x12To2x16 (out.data z)] else []

def dumpLine (out : CsiOutput) (nrOf ncOf : UInt8) (nr : Nat) : StateM Nat (List (BitVec 32)) := do
  let line ← (List.range out.size.2.1).mapM (dumpEntry out nrOf ncOf nr)
  return line.flatten

/-- The loops that print the matrix. -/
def dumpMatrix (out : CsiOutput) (nrOf ncOf : UInt8) :
    StateM Nat (List (List (List (BitVec 32)))) :=
  (List.range out.size.2.2).mapM fun _ => (List.range out.size.1).mapM (dumpLine out nrOf ncOf)

/-- `dump_csi_parse_data_to_file` where the file can be written: `none` where the parser stores
behind its buffers, and nothing is printed where it finds an error. -/
def dumpCsiParseDataToFile (calloc : Bool) (raw : Vector CsiWord csiRawDataSize)
    (nrOf ncOf : UInt8) : Option (Option CsiDump) :=
  (parseCsiMatrix calloc raw ⟨fun _ => 0, (0, 0, 0), 0, 0, false⟩).map fun out =>
    if out.errorFlag then none
    else
      some
        { timeStamp := (out.timeStamp1 <<< 24 ||| out.timeStamp2).signExtend 64
          csiMatrix := ((dumpMatrix out nrOf ncOf).run 0).1 }

/-! ### The words of the antennas -/

namespace CsiChip

/-- The words with data. -/
def dataWords (chip : CsiChip) (raw : Vector CsiWord csiRawDataSize) : List CsiWord :=
  (chip.read raw).filter fun i => !isHeader i

/-- What an antenna has in its words. -/
def antennaData (chip : CsiChip) (raw : Vector CsiWord csiRawDataSize) (a : Nat) : List CsiWord :=
  (withKey chip.antenna a (chip.dataWords raw)).map dataOf

/-- The last word of a type, without the bits above. -/
def lastHeader (chip : CsiChip) (raw : Vector CsiWord csiRawDataSize) (type mask : CsiWord) :
    CsiWord :=
  (((chip.read raw).filter fun i => streamNum i = type).getLast?.map (· &&& mask)).getD 0

end CsiChip

theorem nextIndex_eq {q : Nat} (h : q + 1 < 2 ^ 32) : nextIndex q = q + 1 := by
  rw [nextIndex, Nat.mod_eq_of_lt h, if_neg (Nat.not_lt.mpr (Nat.le_succ q))]

variable {chip : CsiChip} {raw : Vector CsiWord csiRawDataSize}

theorem separateStep_header {s : CsiSeparated} {i : CsiWord} (h : isHeader i = true) :
    (chip.separateStep s i).indexDataArr = s.indexDataArr ∧
      (chip.separateStep s i).antsMat = s.antsMat := by
  rw [CsiChip.separateStep, if_pos h]
  split_ifs <;> exact ⟨rfl, rfl⟩

theorem separateStep_data {s : CsiSeparated} {i : CsiWord} (h : isHeader i = false) :
    chip.separateStep s i =
      { s with
        indexDataArr :=
          Function.update s.indexDataArr (chip.antenna i)
            (nextIndex (s.indexDataArr (chip.antenna i)))
        antsMat := s.antsMat ++
          [⟨s.indexDataArr (chip.antenna i) + 192 * chip.antenna i - 1, [dataOf i]⟩] } := by
  rw [CsiChip.separateStep, if_neg (by rw [h]; exact Bool.false_ne_true)]

/-- The loop stores the words of each antenna one behind the other. -/
theorem foldl_separateStep {words : List CsiWord} {s : CsiSeparated} {count : Nat → Nat} {n : Nat}
    (hindex : ∀ a, s.indexDataArr a = count a + 1) (hcount : ∀ a, count a ≤ n)
    (hfew : n + words.length + 1 < 2 ^ 32) :
    (words.foldl chip.separateStep s).antsMat = s.antsMat ++
      place (192 * ·) chip.antenna dataOf count (words.filter fun i => !isHeader i) := by
  induction words generalizing s count n with
  | nil => exact (List.append_nil _).symm
  | cons i words ih =>
    rw [List.length_cons] at hfew
    rw [List.foldl_cons]
    cases hheader : isHeader i with
    | true =>
      obtain ⟨hsame, hstores⟩ := @separateStep_header chip s i hheader
      rw [List.filter_cons_of_neg (by rw [hheader]; exact Bool.false_ne_true),
        ih (fun a => by rw [hsame, hindex a]) hcount (by omega), hstores]
    | false =>
      have hsmall := hcount (chip.antenna i)
      have hindex' : ∀ a, (chip.separateStep s i).indexDataArr a =
          Function.update count (chip.antenna i) (count (chip.antenna i) + 1) a + 1 := fun a => by
        rw [separateStep_data hheader]
        dsimp only
        by_cases ha : a = chip.antenna i
        · rw [ha, Function.update_self, Function.update_self, hindex, nextIndex_eq (by omega)]
        · rw [Function.update_of_ne ha, Function.update_of_ne ha, hindex]
      have hcount' : ∀ a,
          Function.update count (chip.antenna i) (count (chip.antenna i) + 1) a ≤ n + 1 := by
        intro a
        by_cases ha : a = chip.antenna i
        · rw [ha, Function.update_self]
          omega
        · rw [Function.update_of_ne ha]
          exact Nat.le_succ_of_le (hcount a)
      have haddress : s.indexDataArr (chip.antenna i) + 192 * chip.antenna i - 1 =
          192 * chip.antenna i + count (chip.antenna i) := by
        rw [hindex]
        omega
      rw [List.filter_cons_of_pos (by rw [hheader]; rfl), place, ih hindex' hcount' (by omega),
        separateStep_data hheader, haddress, List.append_assoc, List.singleton_append]

theorem separate_antsMat : (chip.separate raw).antsMat =
    place (192 * ·) chip.antenna dataOf (fun _ => 0) (chip.dataWords raw) := by
  have hlength : (chip.read raw).length ≤ csiRawDataSize := by
    rw [CsiChip.read, List.length_take, Vector.length_toList]
    exact Nat.min_le_right ..
  rw [csiRawDataSize] at hlength
  rw [CsiChip.separate, foldl_separateStep (n := 0) (fun _ => rfl) (fun _ => Nat.le_refl 0)
    (by omega)]
  rfl

theorem getLast?_filter_concat {p : CsiWord → Bool} {words : List CsiWord} {i : CsiWord} :
    ((words ++ [i]).filter p).getLast? = if p i then some i else (words.filter p).getLast? := by
  rw [List.filter_append]
  cases h : p i with
  | true => rw [List.filter_cons_of_pos h, List.filter_nil, List.getLast?_concat, if_pos rfl]
  | false =>
    rw [List.filter_cons_of_neg (by rw [h]; exact Bool.false_ne_true), List.filter_nil,
      List.append_nil, if_neg Bool.false_ne_true]

/-- The time stamps are those of the last words with them. -/
theorem foldl_timeStamps {words : List CsiWord} {s : CsiSeparated} :
    (words.foldl chip.separateStep s).timeStamp1 =
        (((words.filter fun i => streamNum i = 12).getLast?.map (· &&& 65535)).getD s.timeStamp1) ∧
      (words.foldl chip.separateStep s).timeStamp2 =
        (((words.filter fun i => streamNum i = 13).getLast?.map (· &&& 16777215)).getD
          s.timeStamp2) := by
  induction words using List.reverseRecOn with
  | nil => exact ⟨rfl, rfl⟩
  | append_singleton words i ih =>
    rw [List.foldl_concat, getLast?_filter_concat, getLast?_filter_concat, CsiChip.separateStep]
    by_cases h12 : streamNum i = 12
    · have h13 : streamNum i ≠ 13 := by
        rw [h12]
        decide
      have hheader : isHeader i = true := decide_eq_true (.inr (.inr (.inl h12)))
      rw [if_pos hheader, if_pos h12, if_pos (decide_eq_true h12),
        if_neg fun h => h13 (of_decide_eq_true h)]
      exact ⟨rfl, ih.2⟩
    · rw [if_neg fun h => h12 (of_decide_eq_true h)]
      by_cases h13 : streamNum i = 13
      · have hheader : isHeader i = true := decide_eq_true (.inr (.inr (.inr (.inl h13))))
        rw [if_pos hheader, if_neg h12, if_pos h13, if_pos (decide_eq_true h13)]
        exact ⟨ih.1, rfl⟩
      · rw [if_neg h12, if_neg h13, if_neg fun h => h13 (of_decide_eq_true h)]
        split_ifs <;> exact ih

theorem separate_timeStamps :
    (chip.separate raw).timeStamp1 = chip.lastHeader raw 12 65535 ∧
      (chip.separate raw).timeStamp2 = chip.lastHeader raw 13 16777215 :=
  foldl_timeStamps

/-! ### The stores to `ants_mat` -/

theorem length_antennaData (a : Nat) :
    (chip.antennaData raw a).length = (withKey chip.antenna a (chip.dataWords raw)).length :=
  List.length_map _

/-- The stores stay inside the buffer where the words of each antenna do. -/
theorem separate_inside : (chip.separate raw).antsMat.all (fun s => s.address < chip.size) = true ↔
    ∀ a, chip.antennaData raw a ≠ [] → 192 * a + (chip.antennaData raw a).length ≤ chip.size := by
  rw [separate_antsMat, List.all_eq_true]
  constructor
  · intro h a hdata
    have hlength := @length_antennaData chip raw a
    have hpos := List.length_pos_of_ne_nil hdata
    have hlast : (chip.antennaData raw a).length - 1 <
        (withKey chip.antenna a (chip.dataWords raw)).length := by omega
    have hinside := h _ (mem_place.mpr ⟨a, _, _, List.getElem?_eq_getElem hlast, rfl⟩)
    have hlt := of_decide_eq_true hinside
    dsimp only at hlt
    omega
  · rintro h s hs
    obtain ⟨a, n, i, hi, rfl⟩ := mem_place.mp hs
    have hn := (List.getElem?_eq_some_iff.mp hi).1
    rw [← length_antennaData] at hn
    have hfits := h a (List.ne_nil_of_length_pos (Nat.lt_of_le_of_lt (Nat.zero_le n) hn))
    refine decide_eq_true ?_
    show 192 * a + (0 + n) < chip.size
    omega

/-- `parse_csi_matrix` is undefined exactly for the raw data in which an antenna has more words than
`ants_mat` has entries from the beginning of its part on. -/
theorem parseCsiMatrix_undefined (calloc : Bool) (raw : Vector CsiWord csiRawDataSize)
    (out : CsiOutput) :
    parseCsiMatrix calloc raw out = none ↔ calloc = true ∧ ∃ chip,
    csiChip (chipType raw) = some chip ∧
      ∃ a, chip.antennaData raw a ≠ [] ∧ chip.size < 192 * a + (chip.antennaData raw a).length := by
  rw [parseCsiMatrix]
  cases hchip : csiChip (chipType raw) with
  | none => simp
  | some chip =>
    cases calloc with
    | false => simp
    | true =>
      have hinside := @separate_inside chip raw
      constructor
      · intro h
        dsimp only at h
        rw [if_pos rfl] at h
        split_ifs at h with hall
        rw [hinside] at hall
        push Not at hall
        obtain ⟨a, hdata, hlt⟩ := hall
        exact ⟨rfl, chip, rfl, a, hdata, hlt⟩
      · rintro ⟨-, _, ⟨⟩, a, hdata, hlt⟩
        dsimp only
        rw [if_pos rfl, if_neg]
        rw [hinside]
        exact fun h => absurd (h a hdata) (Nat.not_le.mpr hlt)

/-! ### The matrix -/

namespace CsiChip

/-- The antenna whose words have the entry for a subcarrier, an antenna and a stream, and its place
among them: the chips with one stream have all their antennas in one sequence. -/
def origin (chip : CsiChip) (k nr nc : Nat) : Nat × Nat :=
  if chip.columns = 1 then (0, chip.rows * k + nr) else (nr, chip.columns * k + nc)

/-- The entry for a subcarrier, an antenna and a stream; there is 0 where words are missing. -/
def entry (chip : CsiChip) (raw : Vector CsiWord csiRawDataSize) (k nr nc : Nat) : CsiWord :=
  ((chip.antennaData raw (chip.origin k nr nc).1)[(chip.origin k nr nc).2]?).getD 0

/-- No antenna has more words than there are entries for it. -/
def Fits (chip : CsiChip) (raw : Vector CsiWord csiRawDataSize) : Prop :=
  ∀ a, (chip.antennaData raw a).length ≤ chip.rows * 48

/-- The loops of a chip arrange every entry of the matrix from its place in `ants_mat`. -/
structure Lawful (chip : CsiChip) : Prop where
  arranged : ∀ k < 48, ∀ nr < chip.rows, ∀ nc < chip.columns,
    (k * (chip.rows * chip.columns) + nr * chip.columns + nc,
      192 * (chip.origin k nr nc).1 + (chip.origin k nr nc).2) ∈ chip.arranged
  unique : ∀ t b b', (t, b) ∈ chip.arranged → (t, b') ∈ chip.arranged → b' = b
  position : ∀ k < 48, ∀ nr < chip.rows, ∀ nc < chip.columns,
    (chip.origin k nr nc).2 < chip.rows * 48
  apart : chip.rows * 48 ≤ 192 ∨ (∀ i, chip.antenna i = 0) ∧ ∀ k nr nc, (chip.origin k nr nc).1 = 0
  size : chip.size = 48 * (chip.rows * chip.columns)
  antennas : ∀ a, 192 * a + chip.rows * 48 ≤ chip.size ∨ ∀ i, chip.antenna i ≠ a

end CsiChip

theorem mem_arranged_columns {n t b : Nat} :
    (t, b) ∈ ((List.range 48).flatMap fun k => (List.range n).map fun i => (i + n * k, i + k * n)) ↔
      ∃ k < 48, ∃ i < n, t = i + n * k ∧ b = i + k * n := by
  simp only [List.mem_flatMap, List.mem_map, List.mem_range, Prod.mk.injEq]
  constructor
  · rintro ⟨k, hk, i, hi, ht, hb⟩
    exact ⟨k, hk, i, hi, ht.symm, hb.symm⟩
  · rintro ⟨k, hk, i, hi, ht, hb⟩
    exact ⟨k, hk, i, hi, ht.symm, hb.symm⟩

theorem wave700_lawful : wave700.Lawful where
  arranged k hk nr hnr nc hnc := by
    refine mem_arranged_columns.mpr ⟨k, hk, nr, hnr, ?_⟩
    simp only [CsiChip.origin, wave700, if_pos] at *
    omega
  unique t b b' h h' := by
    obtain ⟨k, hk, i, hi, ht, hb⟩ := mem_arranged_columns.mp h
    obtain ⟨k', hk', i', hi', ht', hb'⟩ := mem_arranged_columns.mp h'
    omega
  position k hk nr hnr nc hnc := by
    simp only [CsiChip.origin, wave700, if_pos] at *
    omega
  apart := .inl (by decide)
  size := rfl
  antennas a := by
    cases a with
    | zero => exact .inl (by decide)
    | succ a => exact .inr fun _ h => by cases h

theorem wave600D2_lawful : wave600D2.Lawful where
  arranged k hk nr hnr nc hnc := by
    refine mem_arranged_columns.mpr ⟨k, hk, nr, hnr, ?_⟩
    simp only [CsiChip.origin, wave600D2, if_pos] at *
    omega
  unique t b b' h h' := by
    obtain ⟨k, hk, i, hi, ht, hb⟩ := mem_arranged_columns.mp h
    obtain ⟨k', hk', i', hi', ht', hb'⟩ := mem_arranged_columns.mp h'
    omega
  position k hk nr hnr nc hnc := by
    simp only [CsiChip.origin, wave600D2, if_pos] at *
    omega
  apart := .inr ⟨fun _ => rfl, fun _ _ _ => rfl⟩
  size := rfl
  antennas a := by
    cases a with
    | zero => exact .inl (by decide)
    | succ a => exact .inr fun _ h => by cases h

theorem mem_arranged_wave600B0 {t b : Nat} : (t, b) ∈ wave600B0.arranged ↔
    ∃ k < 4, ∃ s < 4, ∃ i < 48, t = k + s * 4 + i * 16 ∧ b = i * 4 + k + 192 * s := by
  simp only [wave600B0, List.mem_flatMap, List.mem_map, List.mem_range, Prod.mk.injEq,
    Nat.shiftLeft_eq]
  constructor
  · rintro ⟨k, hk, s, hs, i, hi, ht, hb⟩
    exact ⟨k, hk, s, hs, i, hi, ht.symm, hb.symm⟩
  · rintro ⟨k, hk, s, hs, i, hi, ht, hb⟩
    exact ⟨k, hk, s, hs, i, hi, ht.symm, hb.symm⟩

theorem antNum_lt (i : CsiWord) : (antNum i).toNat < 4 := by
  rw [antNum, BitVec.toNat_and]
  exact Nat.lt_of_le_of_lt Nat.and_le_right (by decide)

theorem wave600B0_lawful : wave600B0.Lawful where
  arranged k hk nr hnr nc hnc := by
    refine mem_arranged_wave600B0.mpr ⟨nc, hnc, nr, hnr, k, hk, ?_⟩
    simp [CsiChip.origin, wave600B0]
    omega
  unique t b b' h h' := by
    obtain ⟨k, hk, s, hs, i, hi, ht, hb⟩ := mem_arranged_wave600B0.mp h
    obtain ⟨k', hk', s', hs', i', hi', ht', hb'⟩ := mem_arranged_wave600B0.mp h'
    omega
  position k hk nr hnr nc hnc := by
    simp [CsiChip.origin, wave600B0] at *
    omega
  apart := .inl (by decide)
  size := rfl
  antennas a := by
    by_cases ha : a < 4
    · refine .inl ?_
      simp only [wave600B0]
      omega
    · refine .inr fun i hi => ha ?_
      rw [← hi]
      exact antNum_lt i

theorem csiChip_lawful {chipType : CsiWord} (h : csiChip chipType = some chip) : chip.Lawful := by
  rw [csiChip] at h
  split_ifs at h
  · cases h
    exact wave700_lawful
  · cases h
    exact wave600D2_lawful
  · cases h
    exact wave600B0_lawful

theorem not_empty_antenna {a : Nat} (h : chip.antennaData raw a ≠ []) :
    ∃ i, chip.antenna i = a := by
  obtain ⟨i, hi⟩ := List.exists_mem_of_ne_nil _ h
  obtain ⟨w, hw, -⟩ := List.mem_map.mp hi
  exact ⟨w, of_decide_eq_true (List.mem_filter.mp hw).2⟩

/-- Where the words of the antennas fit, nothing is stored behind the buffer. -/
theorem separate_inside_of_fits (hlawful : chip.Lawful) (hfits : chip.Fits raw) :
    (chip.separate raw).antsMat.all (fun s => s.address < chip.size) = true := by
  rw [separate_inside]
  intro a hdata
  obtain ⟨i, hi⟩ := not_empty_antenna hdata
  have hlength := hfits a
  have hsize := (hlawful.antennas a).resolve_right fun h => h i hi
  omega

/-- Where the words of the antennas fit, each is in `ants_mat` at its place, and there is 0 where no
word is. -/
theorem antsMat_at (hlawful : chip.Lawful) (hfits : chip.Fits raw) {k nr nc : Nat} (hk : k < 48)
    (hnr : nr < chip.rows) (hnc : nc < chip.columns) :
    runAll (chip.separate raw).antsMat (fun _ => 0)
      (192 * (chip.origin k nr nc).1 + (chip.origin k nr nc).2) = chip.entry raw k nr nc := by
  have hposition := hlawful.position k hk nr hnr nc hnc
  rw [CsiChip.entry]
  generalize horigin : chip.origin k nr nc = origin at hposition ⊢
  obtain ⟨a, n⟩ := origin
  have hregions : ∀ a' n', n' < (withKey chip.antenna a' (chip.dataWords raw)).length →
      192 * a + n = 192 * a' + n' → a' = a ∧ n' = n := by
    intro a' n' hn' haddress
    rw [← length_antennaData] at hn'
    have hlength := hfits a'
    rcases hlawful.apart with hsmall | ⟨hone, horigins⟩
    · omega
    · have hdata : chip.antennaData raw a' ≠ [] :=
        List.ne_nil_of_length_pos (Nat.lt_of_le_of_lt (Nat.zero_le n') hn')
      obtain ⟨i, hi⟩ := not_empty_antenna hdata
      have hzero := horigins k nr nc
      rw [horigin] at hzero
      have ha' := hone i
      dsimp only at hzero
      omega
  rw [separate_antsMat]
  cases hword : (withKey chip.antenna a (chip.dataWords raw))[n]? with
  | some i =>
    rw [runAll_place hregions hword, CsiChip.antennaData, List.getElem?_map, hword]
    rfl
  | none =>
    have hnone : ¬ Touches (place (192 * ·) chip.antenna dataOf (fun _ => 0) (chip.dataWords raw))
        (192 * a + n) := by
      intro htouches
      obtain ⟨a', n', hn', haddress⟩ := touches_place.mp htouches
      rw [Nat.zero_add] at haddress
      obtain ⟨rfl, rfl⟩ := hregions a' n' hn' haddress
      exact absurd (List.getElem?_eq_none_iff.mp hword) (Nat.not_le.mpr hn')
    rw [runAll_of_not_touches hnone, CsiChip.antennaData, List.getElem?_map, hword]
    rfl

/-- Every entry of the matrix is the word for its subcarrier, antenna and stream. -/
theorem csiMatrix_at (hlawful : chip.Lawful) (hfits : chip.Fits raw) {k nr nc : Nat} (hk : k < 48)
    (hnr : nr < chip.rows) (hnc : nc < chip.columns) :
    runAll (copies chip.arranged (runAll (chip.separate raw).antsMat fun _ => 0)) (fun _ => 0)
      (k * (chip.rows * chip.columns) + nr * chip.columns + nc) = chip.entry raw k nr nc := by
  have hpair := hlawful.arranged k hk nr hnr nc hnc
  rw [runAll_copies hpair fun b' hb' => hlawful.unique _ _ b' hpair hb']
  exact antsMat_at hlawful hfits hk hnr hnc

/-! ### What is printed -/

/-- 12 bits get their sign in 16 bits. -/
theorem shift_signExtend (y : BitVec 12) :
    (y.setWidth 16 <<< 4).sshiftRight 4 = y.signExtend 16 := by
  ext i hi
  rw [BitVec.getElem_sshiftRight, BitVec.getElem_signExtend]
  by_cases h : i < 12
  · have h4 : 4 + i < 16 := by omega
    simp [h, h4]
  · simp [h, BitVec.msb_eq_getLsbD_last]
    intro h4
    omega

/-- A half of a word, masked. -/
theorem mask_extract (w : BitVec 32) (n : Nat) :
    (w >>> n &&& 0x000FFF).setWidth 16 = (w.extractLsb' n 12).setWidth 16 := by
  ext i hi
  have hmask : (4095#32).getLsbD i = decide (i < 12) := by
    rw [BitVec.getLsbD_ofNat]
    simp only [show 4095 = 2 ^ 12 - 1 from rfl, Nat.testBit_two_pow_sub_one]
    simp
    omega
  rw [BitVec.getElem_setWidth, BitVec.getElem_setWidth, BitVec.getLsbD_and,
    BitVec.getLsbD_extractLsb']
  simp [hmask, Bool.and_comm]

theorem or_append (a b : BitVec 16) : a.setWidth 32 ||| b.setWidth 32 <<< 16 = b ++ a := by
  refine BitVec.eq_of_getLsbD_eq fun i hi => ?_
  rw [BitVec.getLsbD_append, BitVec.getLsbD_or, BitVec.getLsbD_shiftLeft, BitVec.getLsbD_setWidth,
    BitVec.getLsbD_setWidth]
  by_cases h : i < 16
  · simp [h, hi]
  · rw [BitVec.getLsbD_of_ge a i (Nat.le_of_not_lt h)]
    have hlt : i - 16 < 32 := by omega
    simp [h, hi, hlt]

theorem signExtend2x12To2x16_eq (w : BitVec 32) : signExtend2x12To2x16 w =
    (w.extractLsb' 12 12).signExtend 16 ++ (w.extractLsb' 0 12).signExtend 16 := by
  rw [signExtend2x12To2x16, mask_extract, mask_extract, shift_signExtend, shift_signExtend,
    or_append]

/-- What is printed of an entry: its halves of 12 bits, each with its sign in 16 bits. -/
def printed (nrOf ncOf : UInt8) (nr nc : Nat) (i : CsiWord) : List (BitVec 32) :=
  if nr < nrOf.toNat ∧ nc < ncOf.toNat then
    [(i.extractLsb' 12 12).signExtend 16 ++ (i.extractLsb' 0 12).signExtend 16]
  else []

theorem run_dumpEntry (out : CsiOutput) (nrOf ncOf : UInt8) (nr nc z : Nat) :
    (dumpEntry out nrOf ncOf nr nc).run z = (printed nrOf ncOf nr nc (out.data z), z + 1) := by
  rw [printed, ← signExtend2x12To2x16_eq]
  rfl

theorem run_dumpLine (out : CsiOutput) (nrOf ncOf : UInt8) (nr z : Nat) :
    (dumpLine out nrOf ncOf nr).run z =
      ((List.range out.size.2.1).flatMap fun nc => printed nrOf ncOf nr nc (out.data (z + nc)),
        z + out.size.2.1) := by
  have hrun := run_mapM_range (run_dumpEntry out nrOf ncOf nr) out.size.2.1 z
  simp only [Nat.mul_one] at hrun
  rw [dumpLine, StateT.run_bind, hrun, List.flatMap_def]
  rfl

/-- The lines of each subcarrier are printed with the entries in the order of the matrix. -/
theorem run_dumpMatrix (out : CsiOutput) (nrOf ncOf : UInt8) :
    ((dumpMatrix out nrOf ncOf).run 0).1 =
      (List.range out.size.2.2).map fun k => (List.range out.size.1).map fun nr =>
        (List.range out.size.2.1).flatMap fun nc => printed nrOf ncOf nr nc
          (out.data (k * (out.size.1 * out.size.2.1) + nr * out.size.2.1 + nc)) := by
  have hrun := run_mapM_range
    (fun _ z => run_mapM_range (run_dumpLine out nrOf ncOf) out.size.1 z) out.size.2.2 0
  refine (congrArg Prod.fst hrun).trans ?_
  simp only [Nat.zero_add]

theorem csiError_eq (raw : Vector CsiWord csiRawDataSize) :
    csiError raw = (csiChip (chipType raw)).isNone := by
  rw [csiError]
  split_ifs with htag
  · rw [csiChip]
    split_ifs with h3 h2 h1
    · exact decide_eq_false fun h => h.2.2 h3
    · exact decide_eq_false fun h => h.2.1 h2
    · exact decide_eq_false fun h => h.1 h1
    · exact decide_eq_true ⟨h1, h2, h3⟩
  · rw [chipType, if_neg htag]
    rfl

/-- The matrix of raw data whose words fit. -/
theorem parseCsiMatrix_fits (hchip : csiChip (chipType raw) = some chip) (hfits : chip.Fits raw)
    (out : CsiOutput) : parseCsiMatrix true raw out = some
      { data := fun a => if a < chip.size then
            runAll (copies chip.arranged (runAll (chip.separate raw).antsMat fun _ => 0))
              (fun _ => 0) a
          else out.data a
        size := (chip.rows, chip.columns, 48)
        timeStamp1 := chip.lastHeader raw 12 65535
        timeStamp2 := chip.lastHeader raw 13 16777215
        errorFlag := false } := by
  rw [← separate_timeStamps.1, ← separate_timeStamps.2, parseCsiMatrix, csiError_eq, hchip]
  dsimp only
  rw [if_pos rfl, if_pos (separate_inside_of_fits (csiChip_lawful hchip) hfits)]
  rfl

theorem CsiChip.Lawful.lt_size (h : chip.Lawful) {k nr nc : Nat} (hk : k < 48)
    (hnr : nr < chip.rows)
    (hnc : nc < chip.columns) : k * (chip.rows * chip.columns) + nr * chip.columns + nc <
      chip.size := by
  rw [h.size]
  calc k * (chip.rows * chip.columns) + nr * chip.columns + nc
    _ < k * (chip.rows * chip.columns) + (nr + 1) * chip.columns := by
      rw [Nat.succ_mul]
      omega
    _ ≤ k * (chip.rows * chip.columns) + chip.rows * chip.columns :=
      Nat.add_le_add_left (Nat.mul_le_mul_right _ hnr) _
    _ = (k + 1) * (chip.rows * chip.columns) := (Nat.succ_mul ..).symm
    _ ≤ 48 * (chip.rows * chip.columns) := Nat.mul_le_mul_right _ hk

/-- The time stamp in the last words with its two parts. -/
def CsiChip.timeStamp (chip : CsiChip) (raw : Vector CsiWord csiRawDataSize) : Nat :=
  (chip.lastHeader raw 12 65535).toNat * 2 ^ 24 + (chip.lastHeader raw 13 16777215).toNat

theorem CsiChip.toNat_lastHeader_le (type mask : CsiWord) :
    (chip.lastHeader raw type mask).toNat ≤ mask.toNat := by
  rw [CsiChip.lastHeader]
  cases ((chip.read raw).filter fun i => streamNum i = type).getLast? with
  | none => exact Nat.zero_le _
  | some i => exact Nat.and_le_right

/-- The parts are put together in 32 bits with a sign, so the upper part may have seven bits. -/
theorem toNat_timeStamp {part1 part2 : CsiWord} (hpart2 : part2.toNat < 2 ^ 24) :
    ((part1 <<< 24 ||| part2).signExtend 64).toNat = part1.toNat % 2 ^ 8 * 2 ^ 24 + part2.toNat +
      if 2 ^ 7 ≤ part1.toNat % 2 ^ 8 then 2 ^ 64 - 2 ^ 32 else 0 := by
  have hshift : part1.toNat <<< 24 % 2 ^ 32 = (part1.toNat % 2 ^ 8) <<< 24 := by
    rw [Nat.shiftLeft_eq, Nat.shiftLeft_eq]
    omega
  have hword : (part1 <<< 24 ||| part2).toNat = part1.toNat % 2 ^ 8 * 2 ^ 24 + part2.toNat := by
    rw [BitVec.toNat_or, BitVec.toNat_shiftLeft, hshift, ← Nat.shiftLeft_add_eq_or_of_lt hpart2,
      Nat.shiftLeft_eq]
  have hsign : (part1 <<< 24 ||| part2).msb = decide (2 ^ 7 ≤ part1.toNat % 2 ^ 8) := by
    rw [BitVec.msb_eq_decide, hword, decide_eq_decide]
    omega
  rw [BitVec.toNat_signExtend, BitVec.toNat_setWidth, hword, hsign, Nat.mod_eq_of_lt (by omega)]
  simp only [decide_eq_true_eq]

/-- For all raw data of a chip, whose words may come in any order of the antennas and with other
words between them, what is printed for a subcarrier is, for each active antenna and stream, the
word of the antenna for them, its two numbers with their signs. The time stamp is printed in its
lower 32 bits, and as a whole just where the upper part has no more than seven bits. -/
theorem csi_dumped (hchip : csiChip (chipType raw) = some chip) (hfits : chip.Fits raw)
    (nrOf ncOf : UInt8) : ∃ dump, dumpCsiParseDataToFile true raw nrOf ncOf = some (some dump) ∧
      (dump.csiMatrix = (List.range 48).map fun k => (List.range chip.rows).map fun nr =>
        (List.range chip.columns).flatMap fun nc =>
          printed nrOf ncOf nr nc (chip.entry raw k nr nc)) ∧
      dump.timeStamp.toNat % 2 ^ 32 = chip.timeStamp raw % 2 ^ 32 ∧
      (dump.timeStamp.toNat = chip.timeStamp raw ↔
        (chip.lastHeader raw 12 65535).toNat < 2 ^ 7) := by
  have hlawful := csiChip_lawful hchip
  have hpart2 : (chip.lastHeader raw 13 16777215).toNat < 2 ^ 24 :=
    Nat.lt_of_le_of_lt (CsiChip.toNat_lastHeader_le ..) (by decide)
  rw [dumpCsiParseDataToFile, parseCsiMatrix_fits hchip hfits]
  refine ⟨_, rfl, ?_, by
    rw [CsiChip.timeStamp]
    dsimp only
    rw [toNat_timeStamp hpart2]
    split <;> omega⟩
  rw [run_dumpMatrix]
  refine List.map_congr_left fun k hk => List.map_congr_left fun nr hnr => ?_
  rw [List.flatMap_def, List.flatMap_def]
  refine congrArg List.flatten (List.map_congr_left fun nc hnc => ?_)
  rw [List.mem_range] at hk hnr hnc
  dsimp only
  rw [if_pos (hlawful.lt_size hk hnr hnc), csiMatrix_at hlawful hfits hk hnr hnc]

/-- A report of the smallest chip, with five other words before the data. -/
def csiSample : Vector CsiWord csiRawDataSize :=
  (((((Vector.replicate csiRawDataSize 0x00FFF001).set 0 0x0A000003).set 1 0x0B000000).set 2
    0x0C000001).set 3 0x0D000002).set 4 0x0E000000

theorem csi_dumped_sample : ∃ dump, dumpCsiParseDataToFile true csiSample 4 1 = some (some dump) ∧
    (dump.csiMatrix = (List.range 48).map fun k => (List.range 4).map fun nr =>
      (List.range 1).flatMap fun nc => printed 4 1 nr nc (wave700.entry csiSample k nr nc)) ∧
    dump.timeStamp.toNat = 2 ^ 24 + 2 := by
  have hfew : (wave700.dataWords csiSample).length ≤ 192 := by decide +kernel
  have hfits : wave700.Fits csiSample := fun a => by
    rw [length_antennaData]
    exact Nat.le_trans (List.length_filter_le ..) hfew
  have htype : chipType csiSample = 3 := by decide +kernel
  have hchip : csiChip (chipType csiSample) = some wave700 := by
    rw [htype]
    rfl
  have hparts : (wave700.lastHeader csiSample 12 65535).toNat = 1 ∧
      (wave700.lastHeader csiSample 13 16777215).toNat = 2 := by decide +kernel
  obtain ⟨dump, hdump, hmatrix, -, hstamp⟩ := csi_dumped hchip hfits 4 1
  refine ⟨dump, hdump, hmatrix, ?_⟩
  rw [hstamp.mpr (by rw [hparts.1]; decide), CsiChip.timeStamp, hparts.1, hparts.2, Nat.one_mul]

/-- -1 and 1 in 12 bits. -/
example : printed 4 1 0 0 0x00FFF001 = [0xFFFF0001] := by decide

/-- For all raw data: nothing is printed exactly for data that no chip has made, or where the
buffers cannot be allocated, and the parser stores behind its buffers exactly where an antenna has
more words than there are entries from the beginning of its part on. -/
theorem csi_refused (calloc : Bool) (raw : Vector CsiWord csiRawDataSize) (nrOf ncOf : UInt8) :
    (dumpCsiParseDataToFile calloc raw nrOf ncOf = some none ↔
      csiChip (chipType raw) = none ∨ calloc = false) ∧
    (dumpCsiParseDataToFile calloc raw nrOf ncOf = none ↔
      calloc = true ∧ ∃ chip, csiChip (chipType raw) = some chip ∧
        ∃ a, chip.antennaData raw a ≠ [] ∧
          chip.size < 192 * a + (chip.antennaData raw a).length) := by
  constructor
  · rw [dumpCsiParseDataToFile, parseCsiMatrix, csiError_eq]
    cases hchip : csiChip (chipType raw) with
    | none => simp
    | some chip =>
      cases calloc with
      | false => simp
      | true =>
        dsimp only
        rw [if_pos rfl]
        split_ifs with hall <;> simp
  · rw [dumpCsiParseDataToFile, Option.map_eq_none_iff, parseCsiMatrix_undefined]

end Dwpal.Stats
