import Dwpal.Parse.CmdBuild
import Dwpal.Parse.NamedRow
import Dwpal.Parse.ParsersAgree

/-! The parameters of a command that `dwpald_hostap_cmd_build` writes are read back by
`dwpald_hostap_response_parse`. -/

namespace Dwpal.Parse

open CText CNumber

/-- The type of the field that a value is read into. -/
def CmdValue.fieldType : CmdValue → FieldType
  | .str _ => .str
  | .hexstr _ => .hexstr
  | .char _ => .char
  | .int8 _ => .int8
  | .uint8 _ => .uint8
  | .short _ => .short
  | .ushort _ => .ushort
  | .int _ => .int
  | .uint _ => .uint
  | .int64 _ => .int64
  | .uint64 _ => .uint64
  | .bool _ => .bool
  | .hex _ => .hex
  | .dummy => .dummy
  | .array => .intArray

/-- The value, as a field holds it. -/
def CmdValue.parsed : CmdValue → FieldValue
  | .str s => .text s
  | .hexstr s => .text s
  | .char c => .char c
  | .int8 v => .num v.toInt
  | .uint8 v => .num v.toNat
  | .short v => .num v.toInt
  | .ushort v => .num v.toNat
  | .int v => .num v.toInt
  | .uint v => .num v.toNat
  | .int64 v => .num v.toInt
  | .uint64 v => .num v.toNat
  | .bool v => .bool v
  | .hex v => .num v.toNat
  | .dummy | .array => .num 0

/-- A named scalar parameter whose text keeps within the format, and a field for it with the same
name and type and room for a string. -/
structure NamedParam (param : FieldToCmd) (f : FieldToParse) : Prop where
  scalar : param.value ≠ .dummy ∧ param.value ≠ .array
  name : ∃ name, param.name = some name ∧ IsName name ∧ 0 ∉ name ∧
    name.length + 1 < dwpalFieldNameLength
  text : ∀ b ∈ valueText param.value, b ≠ blank ∧ b ≠ newline ∧ b ≠ equals ∧ b ≠ 0
  hexstr : ∀ s, param.value = .hexstr s → 0 ∉ s
  short : (valueText param.value).length < hostapdToDwpalValueStringLength
  sameName : f.name = param.name
  sameType : f.type = param.value.fieldType
  field : f.field = true
  room : ∀ s, param.value = .str s ∨ param.value = .hexstr s → s.length < f.totalSizeOfArg

/-- The command is built, and parsed with success to the values of its parameters. -/
def RoundTrips (p : Platform) (size : Nat) (cmd : List UInt8) (params : List FieldToCmd)
    (fields : List FieldToParse) (msgLen userBufLen : Nat) (out : Outputs) : Prop :=
  ∃ total text out', dwpaldHostapCmdBuild p size cmd params = some (some (total, text)) ∧
    dwpaldHostapResponseParse p (some text) msgLen fields userBufLen out = some (true, out') ∧
    ∀ i param, params[i]? = some param → out'.value 0 i = param.value.parsed

/-- A value that comes back: its text is within the limit of `fieldValuesGet`, an empty string is in
the last place, no character of a hex string is negative, and a `HEX` is no larger than a `long`. -/
def Survives (p : Platform) (last : Prop) (value : CmdValue) : Prop :=
  (valueText value).length + 1 < hostapdToDwpalValueStringLength ∧
    match value with
    | .str s => s = [] → last
    | .hexstr s => (s = [] → last) ∧ (p.charSigned → ∀ b ∈ s, b < 128)
    | .hex v => v.toNat < 2 ^ (p.longBits - 1)
    | _ => True

section Reading

variable {p : Platform} {value : CmdValue} {f : FieldToParse} {s : List UInt8} {last : Prop}

theorem intText_ne_nil (z : Int) : intText z ≠ [] := by
  rw [intText]
  split
  · exact List.cons_ne_nil _ _
  · exact natText_ne_nil

/-- Only strings have an empty text. -/
theorem valueText_eq_nil (h : valueText value = []) (hdummy : value ≠ .dummy)
    (harray : value ≠ .array) : value = .str [] ∨ value = .hexstr [] := by
  cases value with
  | str s => exact .inl (congrArg CmdValue.str h)
  | hexstr s =>
    cases s with
    | nil => exact .inr rfl
    | cons b s => cases h
  | char c => cases h
  | dummy => exact absurd rfl hdummy
  | array => exact absurd rfl harray
  | int8 v | short v | int v | int64 v => exact absurd h (intText_ne_nil _)
  | uint8 v | ushort v | uint v | uint64 v | bool v | hex v => exact absurd h natText_ne_nil

theorem intText_natCast (n : Nat) : intText n = natText 10 n := by
  rw [intText, if_neg (by omega), Int.natAbs_natCast]

theorem strtolLong_intText {base : Nat} (hbase : base = 0 ∨ base = 10) {z : Int}
    (hlow : -2 ^ 31 ≤ z) (hhigh : z < 2 ^ 31) : strtolLong p base (intText z) = z := by
  have hle := p.le_longBits
  have hpow : (2 : Int) ^ 31 ≤ 2 ^ (p.longBits - 1) :=
    pow_le_pow_right₀ (by decide) (by omega)
  exact strtol_intText hbase (by omega) (by omega)

/-- The values of the integer types are read from their texts. -/
theorem readScalar_text (hscalar : value ≠ .dummy ∧ value ≠ .array)
    (hsurvives : Survives p last value)
    (hstr : ∀ s, value ≠ .str s) (hhexstr : ∀ s, value ≠ .hexstr s) :
    readScalar p (valueText value) value.fieldType = value.parsed := by
  have hle := p.le_longBits
  cases value with
  | str s => exact absurd rfl (hstr s)
  | hexstr s => exact absurd rfl (hhexstr s)
  | dummy => exact absurd rfl hscalar.1
  | array => exact absurd rfl hscalar.2
  | char c => rfl
  | int8 v =>
    have hlow := v.le_toInt
    have hhigh := v.toInt_lt
    change FieldValue.num ((strtolLong p 0 (intText v.toInt)).bmod (2 ^ 8)) = .num v.toInt
    rw [strtolLong_intText (.inl rfl) (by omega) (by omega),
      Int.bmod_eq_of_le (by omega) (by omega)]
  | short v =>
    have hlow := v.le_toInt
    have hhigh := v.toInt_lt
    change FieldValue.num ((strtolLong p 0 (intText v.toInt)).bmod (2 ^ 16)) = .num v.toInt
    rw [strtolLong_intText (.inl rfl) (by omega) (by omega),
      Int.bmod_eq_of_le (by omega) (by omega)]
  | int v =>
    have hlow := v.le_toInt
    have hhigh := v.toInt_lt
    change FieldValue.num ((strtolLong p 0 (intText v.toInt)).bmod (2 ^ 32)) = .num v.toInt
    rw [strtolLong_intText (.inl rfl) (by omega) (by omega),
      Int.bmod_eq_of_le (by omega) (by omega)]
  | int64 v =>
    have hlow := v.le_toInt
    have hhigh := v.toInt_lt
    change FieldValue.num (strtol 64 0 (intText v.toInt)).1 = .num v.toInt
    rw [strtol_intText (.inl rfl) hlow hhigh]
  | uint8 v =>
    have hlt := v.toNat_lt
    change FieldValue.num (strtolLong p 0 (natText 10 v.toNat) % 2 ^ 8) = .num v.toNat
    rw [← intText_natCast, strtolLong_intText (.inl rfl) (by omega) (by omega),
      Int.emod_eq_of_lt (by omega) (by omega)]
  | ushort v =>
    have hlt := v.toNat_lt
    change FieldValue.num (strtolLong p 0 (natText 10 v.toNat) % 2 ^ 16) = .num v.toNat
    rw [← intText_natCast, strtolLong_intText (.inl rfl) (by omega) (by omega),
      Int.emod_eq_of_lt (by omega) (by omega)]
  | uint v =>
    have hlt := v.toNat_lt
    have hpow : 2 ^ 32 ≤ 2 ^ p.longBits := Nat.pow_le_pow_right (by decide) hle
    change FieldValue.num ((strtoul p.longBits 0 (natText 10 v.toNat)).1 % 2 ^ 32 : Nat) =
      .num v.toNat
    rw [strtoul_natText (by omega), Nat.mod_eq_of_lt hlt]
  | uint64 v =>
    have hlt := v.toNat_lt
    change FieldValue.num (strtoul 64 0 (natText 10 v.toNat)).1 = .num v.toNat
    rw [strtoul_natText hlt]
  | bool v =>
    have hle := v.toNat_le
    have hread : strtolLong p 10 (natText 10 v.toNat) = v.toNat := by
      rw [← intText_natCast, strtolLong_intText (.inr rfl) (by omega) (by omega)]
    change FieldValue.bool (atoi p (natText 10 v.toNat) != 0) = .bool v
    rw [atoi, hread]
    cases v <;> rfl
  | hex v =>
    have hlt := v.toNat_lt
    have hlong : (v.toNat : Int) < 2 ^ (p.longBits - 1) := by exact_mod_cast hsurvives.2
    change FieldValue.num (strtolLong p 16 (natText 16 v.toNat) % 2 ^ 32) = .num v.toNat
    rw [strtolLong, strtol_hexText, Int.min_eq_right (by omega),
      Int.emod_eq_of_lt (by omega) (by omega)]

theorem hexToNum_digitByte {d : Nat} (h : d < 16) : hexToNum (digitByte d) = some d := by
  interval_cases d <;> decide

theorem hexToStrLoop_hexOfByte : hexToStrLoop (s.flatMap hexOfByte) = (true, s) := by
  induction s with
  | nil => rfl
  | cons b s ih =>
    have hlt := b.toNat_lt
    change hexToStrLoop (digitByte (b.toNat / 16) :: digitByte (b.toNat % 16) ::
      s.flatMap hexOfByte) = _
    rw [hexToStrLoop, hexToNum_digitByte (by omega), hexToNum_digitByte (by omega), ih]
    dsimp only
    rw [Nat.div_add_mod', UInt8.ofNat_toNat]

theorem length_hexOfByte : (s.flatMap hexOfByte).length = 2 * s.length := by
  induction s with
  | nil => rfl
  | cons b s ih =>
    rw [List.flatMap_cons, List.length_append, ih, List.length_cons]
    change 2 + 2 * s.length = _
    omega

/-- A hex string is read back. -/
theorem dwpaldHexToStr_hexOfByte {size : Nat} (hsize : s.length < size) (hzero : 0 ∉ s) :
    dwpaldHexToStr size (s.flatMap hexOfByte) = (true, some s) := by
  rw [dwpaldHexToStr, if_neg (by omega)]
  dsimp only
  rw [length_hexOfByte, Nat.min_eq_left (by omega), if_neg (by omega), hexToStrLoop_hexOfByte,
    cstr_of_notMem hzero]

/-- A field is set to the value whose text is given. -/
theorem setField_text {param : FieldToCmd} (h : NamedParam param f)
    (hsurvives : Survives p last param.value) :
    setField p f (valueText param.value) = (true, some param.value.parsed) := by
  have hread := @readScalar_text p param.value last h.scalar hsurvives
  rw [setField, h.sameType]
  cases hvalue : param.value with
  | str s =>
    have hroom := h.room s (.inl hvalue)
    change (if f.totalSizeOfArg = 0 then (false, none)
      else if s.length < f.totalSizeOfArg then (true, some (FieldValue.text s))
      else (false, some (FieldValue.text []))) = _
    rw [if_neg (by omega), if_pos hroom]
    rfl
  | hexstr s =>
    have hbytes := dwpaldHexToStr_hexOfByte (h.room s (.inr hvalue)) (h.hexstr s hvalue)
    change ((dwpaldHexToStr f.totalSizeOfArg (s.flatMap hexOfByte)).1,
      (dwpaldHexToStr f.totalSizeOfArg (s.flatMap hexOfByte)).2.map FieldValue.text) = _
    rw [hbytes]
    rfl
  | dummy => exact absurd hvalue h.scalar.1
  | array => exact absurd hvalue h.scalar.2
  | _ =>
    rw [hvalue] at hread
    exact congrArg (fun value => (true, some value))
      (hread (fun _ heq => by cases heq) fun _ heq => by cases heq)

end Reading

section Lost

variable {p : Platform} {param : FieldToCmd} {f : FieldToParse} {s : List UInt8}

theorem NamedParam.type_ne_dummy (h : NamedParam param f) : f.type ≠ .dummy := by
  have hscalar := h.scalar.1
  rw [h.sameType]
  cases hvalue : param.value with
  | dummy => exact absurd hvalue hscalar
  | _ => exact nofun

theorem NamedParam.isArray (h : NamedParam param f) : f.type.isArray = false := by
  have hscalar := h.scalar.2
  rw [h.sameType]
  cases hvalue : param.value with
  | array => exact absurd hvalue hscalar
  | _ => rfl

theorem NamedParam.getFieldSize_ne (h : NamedParam param f) : getFieldSize f ≠ 0 := by
  rw [getFieldSize, if_neg (by rw [h.field]; decide), h.sameType]
  cases hvalue : param.value with
  | str s => exact Nat.ne_of_gt (Nat.zero_lt_of_lt (h.room s (.inl hvalue)))
  | hexstr s => exact Nat.ne_of_gt (Nat.zero_lt_of_lt (h.room s (.inr hvalue)))
  | dummy => exact absurd hvalue h.scalar.1
  | array => exact absurd hvalue h.scalar.2
  | _ => exact Nat.succ_ne_zero _

theorem NamedParam.sizeChecked (h : NamedParam param f) : sizeChecked f = true := by
  have harray := h.isArray
  have hsize := h.getFieldSize_ne
  rw [Parse.sizeChecked]
  cases htype : f.type with
  | strArray => rw [htype] at harray; cases harray
  | intArray => rw [htype] at harray; cases harray
  | hexArray => rw [htype] at harray; cases harray
  | _ => simp [hsize]

/-- A value that is left at zero has a short text. -/
theorem length_valueText_of_zero (h : param.value.fieldType.zero = param.value.parsed) :
    (valueText param.value).length ≤ 1 := by
  cases hvalue : param.value with
  | str s =>
    rw [hvalue] at h
    obtain rfl : [] = s := FieldValue.text.inj h
    exact Nat.zero_le 1
  | hexstr s =>
    rw [hvalue] at h
    obtain rfl : [] = s := FieldValue.text.inj h
    exact Nat.zero_le 1
  | char c => exact Nat.le_refl 1
  | bool v => cases v <;> decide
  | dummy => exact Nat.zero_le 1
  | array => exact Nat.zero_le 1
  | int8 v | short v | int v | int64 v =>
    rw [hvalue] at h
    have hzero : 0 = v.toInt := FieldValue.num.inj h
    rw [valueText, ← hzero]
    decide
  | uint8 v | ushort v | uint v | uint64 v | hex v =>
    rw [hvalue] at h
    have hzero : 0 = (v.toNat : Int) := FieldValue.num.inj h
    rw [valueText, show v.toNat = 0 by omega]
    decide

/-- The blank that is read in place of an empty string is not the value. -/
theorem setField_blank (h : NamedParam param f)
    (hempty : param.value = .str [] ∨ param.value = .hexstr []) :
    setField p f [blank] ≠ (true, some param.value.parsed) := by
  intro hset
  rw [setField, h.sameType] at hset
  rcases hempty with hvalue | hvalue
  · rw [hvalue] at hset
    change (if f.totalSizeOfArg = 0 then (false, none)
      else if [blank].length < f.totalSizeOfArg then (true, some (FieldValue.text [blank]))
      else (false, some (FieldValue.text []))) = (true, some (FieldValue.text [])) at hset
    split_ifs at hset <;> simp_all
  · rw [hvalue] at hset
    have hroom : 0 < f.totalSizeOfArg := h.room [] (.inr hvalue)
    change ((dwpaldHexToStr f.totalSizeOfArg [blank]).1,
      (dwpaldHexToStr f.totalSizeOfArg [blank]).2.map FieldValue.text) = _ at hset
    have hlength : min [blank].length ((f.totalSizeOfArg + 1) * 2) = 1 :=
      Nat.min_eq_left (show 1 ≤ (f.totalSizeOfArg + 1) * 2 by omega)
    rw [dwpaldHexToStr, if_neg (by omega), hlength] at hset
    dsimp only at hset
    rw [if_pos (.inr (by decide))] at hset
    cases hset

/-- A larger number is read as the largest `long`. -/
theorem readScalar_hex {v : UInt32} (h : readScalar p (natText 16 v.toNat) .hex = .num v.toNat) :
    v.toNat < 2 ^ (p.longBits - 1) := by
  have hle := p.le_longBits
  have hlt := v.toNat_lt
  have hread := FieldValue.num.inj h
  rw [strtolLong, strtol_hexText] at hread
  by_contra hlong
  have hbits : p.longBits = 32 := by
    by_contra hne
    have hpow : 2 ^ 32 ≤ 2 ^ (p.longBits - 1) := Nat.pow_le_pow_right (by decide) (by omega)
    omega
  rw [hbits] at hread hlong
  omega

end Lost

/-- A command and named parameters whose text fits into the buffers, and the fields they are read
into. -/
structure ParsedCommand (size : Nat) (cmd : List UInt8) (params : List FieldToCmd)
    (fields : List FieldToParse) (msgLen userBufLen : Nat) : Prop where
  word : equals ∉ cmd ∧ 0 ∉ cmd
  notFailed : ¬ascii "UNKNOWN" <+: cmd ∧ ¬ascii "FAIL" <+: cmd
  named : List.Forall₂ NamedParam params fields
  distinct : (params.map FieldToCmd.name).Nodup
  fits : (commandText cmd params).length + 1 < size
  limit : (commandText cmd params).length ≤ hostapdToDwpalMsgLength
  length : 0 < msgLen ∧ (commandText cmd params).length ≤ msgLen
  room : 0 < userBufLen

/-- The parser takes the parameters for one row: the names have no newline, and the command none but
in front, unless there is at most one parameter, so that a message of several lines is a column. -/
structure OneRow (cmd : List UInt8) (params : List FieldToCmd) : Prop where
  names : ∀ param ∈ params, newline ∉ param.name.getD []
  command : newline ∉ cmd.dropWhile (· == newline) ∨ params.length ≤ 1

/-- The names and texts of parameters. -/
def namedValues (params : List FieldToCmd) : List NamedValue :=
  params.map fun param => (param.name.getD [], valueText param.value)

theorem commandText_eq {cmd : List UInt8} {params : List FieldToCmd} :
    commandText cmd params = namedRow cmd (namedValues params) := by
  rw [commandText, namedRow, namedValues, List.flatMap_map]

theorem mem_namedRow {head : List UInt8} {pairs : List NamedValue} {b : UInt8}
    (h : b ∈ namedRow head pairs) (hb : b ≠ blank) :
    b ∈ head ∨ ∃ pair ∈ pairs, b ∈ pair.1 ∨ b ∈ pair.2 := by
  rcases List.mem_append.mp h with hmem | hmem
  · exact .inl hmem
  · obtain ⟨pair, hpair, hmem⟩ := List.mem_flatMap.mp hmem
    rcases List.mem_cons.mp hmem with heq | hmem
    · exact absurd heq hb
    · exact .inr ⟨pair, hpair, List.mem_append.mp hmem⟩

/-- A word at the beginning of a row is at the beginning of what is in front of its values. -/
theorem prefix_namedRow {word head : List UInt8} {pairs : List NamedValue} (hword : blank ∉ word)
    (h : word <+: namedRow head pairs) : word <+: head := by
  cases pairs with
  | nil => rwa [namedRow_nil] at h
  | cons pair pairs =>
    obtain ⟨tail, htail⟩ := h
    rw [namedRow_cons] at htail
    rcases List.append_eq_append_iff.mp htail with ⟨rest, hhead, -⟩ | ⟨rest, hrest, hblank⟩
    · exact ⟨rest, hhead.symm⟩
    · cases rest with
      | nil => exact ⟨[], by rw [hrest]; simp⟩
      | cons b rest =>
        have hb := (List.cons.inj hblank).1
        refine absurd ?_ hword
        rw [hrest, hb]
        simp

section Command

variable {p : Platform} {size : Nat} {cmd : List UInt8} {params : List FieldToCmd}
  {fields : List FieldToParse} {msgLen userBufLen : Nat}

theorem ParsedCommand.param (h : ParsedCommand size cmd params fields msgLen userBufLen) {i : Nat}
    {param : FieldToCmd} (hparam : params[i]? = some param) :
    ∃ f, fields[i]? = some f ∧ NamedParam param f := by
  obtain ⟨hlt, rfl⟩ := List.getElem?_eq_some_iff.mp hparam
  have hlength := h.named.length_eq
  refine ⟨fields[i], List.getElem?_eq_getElem (by omega), ?_⟩
  exact (List.forall₂_iff_get.mp h.named).2 i hlt (by omega)

theorem ParsedCommand.field (h : ParsedCommand size cmd params fields msgLen userBufLen) {i : Nat}
    {f : FieldToParse} (hf : fields[i]? = some f) :
    ∃ param, params[i]? = some param ∧ NamedParam param f := by
  obtain ⟨hlt, rfl⟩ := List.getElem?_eq_some_iff.mp hf
  have hlength := h.named.length_eq
  refine ⟨params[i], List.getElem?_eq_getElem (by omega), ?_⟩
  exact (List.forall₂_iff_get.mp h.named).2 i (by omega) hlt

theorem ParsedCommand.ofMem (h : ParsedCommand size cmd params fields msgLen userBufLen)
    {pair : NamedValue} (hpair : pair ∈ namedValues params) :
    ∃ param f, param ∈ params ∧ NamedParam param f ∧
      pair = (param.name.getD [], valueText param.value) := by
  obtain ⟨param, hmem, rfl⟩ := List.mem_map.mp hpair
  obtain ⟨i, hi⟩ := List.mem_iff_getElem?.mp hmem
  obtain ⟨f, -, hnamed⟩ := h.param hi
  exact ⟨param, f, hmem, hnamed, rfl⟩

theorem NamedParam.isName {param : FieldToCmd} {f : FieldToParse} (h : NamedParam param f) :
    IsName (param.name.getD []) := by
  obtain ⟨name, hname, hword, -⟩ := h.name
  rwa [hname]

theorem ParsedCommand.wellNamed (h : ParsedCommand size cmd params fields msgLen userBufLen) :
    WellNamed (namedValues params) := by
  constructor
  · intro pair hpair
    obtain ⟨param, f, -, hnamed, rfl⟩ := h.ofMem hpair
    exact hnamed.isName
  · intro pair hpair
    obtain ⟨param, f, -, hnamed, rfl⟩ := h.ofMem hpair
    exact ⟨fun hmem => (hnamed.text _ hmem).1 rfl, fun hmem => (hnamed.text _ hmem).2.2.1 rfl⟩

theorem ParsedCommand.zero (h : ParsedCommand size cmd params fields msgLen userBufLen) :
    0 ∉ commandText cmd params := by
  rw [commandText_eq]
  intro hmem
  rcases mem_namedRow hmem (by decide) with hcmd | ⟨pair, hpair, hmem⟩
  · exact h.word.2 hcmd
  · obtain ⟨param, f, -, hnamed, rfl⟩ := h.ofMem hpair
    obtain ⟨name, hname, -, hzero, -⟩ := hnamed.name
    rcases hmem with hmem | hmem
    · rw [hname] at hmem
      exact hzero hmem
    · exact (hnamed.text _ hmem).2.2.2 rfl

/-- The parameters have no newline. -/
theorem ParsedCommand.newline (h : ParsedCommand size cmd params fields msgLen userBufLen)
    (hrow : OneRow cmd params) : newline ∉ commandText [] params := by
  rw [commandText_eq]
  intro hmem
  rcases mem_namedRow hmem (by decide) with hcmd | ⟨pair, hpair, hmem⟩
  · cases hcmd
  · obtain ⟨param, f, hparam, hnamed, rfl⟩ := h.ofMem hpair
    rcases hmem with hmem | hmem
    · exact hrow.names param hparam hmem
    · exact (hnamed.text _ hmem).2.1 rfl

/-- The parser knows the names of the parameters. -/
theorem ParsedCommand.names (h : ParsedCommand size cmd params fields msgLen userBufLen) :
    allNames fields = (namedValues params).map Prod.fst := by
  have hdummies : ∀ g ∈ fields, g.type = .dummy → g.name = none := fun g hg hdummy => by
    obtain ⟨i, hi⟩ := List.mem_iff_getElem?.mp hg
    obtain ⟨param, -, hnamed⟩ := h.field hi
    exact absurd hdummy hnamed.type_ne_dummy
  rw [allNames_eq hdummies]
  have hparams := h.named
  clear h hdummies
  induction hparams with
  | nil => rfl
  | cons hnamed _ ih =>
    obtain ⟨name, hname, -⟩ := hnamed.name
    rw [knownNames, List.filterMap_cons, hnamed.sameName, hname]
    change name :: knownNames _ = _
    rw [ih]
    simp [namedValues, hname]

theorem ParsedCommand.nodup (h : ParsedCommand size cmd params fields msgLen userBufLen) :
    ((namedValues params).map Prod.fst).Nodup := by
  have hmap : (namedValues params).map Prod.fst =
      (params.map FieldToCmd.name).map fun name => name.getD [] := by
    simp [namedValues]
  have hsome : ∀ name ∈ params.map FieldToCmd.name, ∃ text, name = some text := fun name hname => by
    obtain ⟨param, hmem, rfl⟩ := List.mem_map.mp hname
    obtain ⟨i, hi⟩ := List.mem_iff_getElem?.mp hmem
    obtain ⟨f, -, hnamed⟩ := h.param hi
    obtain ⟨text, htext, -⟩ := hnamed.name
    exact ⟨text, htext⟩
  rw [hmap]
  refine List.Nodup.map_on (fun name hname name' hname' heq => ?_) h.distinct
  obtain ⟨text, rfl⟩ := hsome name hname
  obtain ⟨text', rfl⟩ := hsome name' hname'
  exact congrArg some heq

/-- The names fit into the buffers, and do not end the list of names. -/
theorem ParsedCommand.namesFit (h : ParsedCommand size cmd params fields msgLen userBufLen)
    (hrow : OneRow cmd params) : NamesFit ((namedValues params).map Prod.fst) := by
  intro name hname
  obtain ⟨pair, hpair, rfl⟩ := List.mem_map.mp hname
  obtain ⟨param, f, hparam, hnamed, rfl⟩ := h.ofMem hpair
  obtain ⟨text, htext, -, -, hlength⟩ := hnamed.name
  constructor
  · rw [htext]
    exact Nat.lt_trans hlength (by decide)
  · intro hhead
    exact hrow.names param hparam (List.mem_of_head? hhead)

/-- The text of the command passes the checks of the parser. -/
theorem ParsedCommand.parse_eq (h : ParsedCommand size cmd params fields msgLen userBufLen)
    (out : Outputs) :
    dwpaldHostapResponseParse p (some (commandText cmd params)) msgLen fields userBufLen out =
      parseLines p fields userBufLen 0 (messageRows fields (commandText cmd params))
        (cleanupAllFields out 0 fields) := by
  have hchecked : fields.all sizeChecked = true := List.all_eq_true.mpr fun f hf => by
    obtain ⟨i, hi⟩ := List.mem_iff_getElem?.mp hf
    obtain ⟨param, -, hnamed⟩ := h.field hi
    exact hnamed.sizeChecked
  have hfailed : ¬((ascii "UNKNOWN").isPrefixOf (commandText cmd params) ∨
      (ascii "FAIL").isPrefixOf (commandText cmd params)) := by
    rw [List.isPrefixOf_iff_prefix, List.isPrefixOf_iff_prefix, commandText_eq, not_or]
    exact ⟨fun hprefix => h.notFailed.1 (prefix_namedRow (by decide) hprefix),
      fun hprefix => h.notFailed.2 (prefix_namedRow (by decide) hprefix)⟩
  have hlength := h.length
  rw [dwpaldHostapResponseParse, cstr_of_notMem h.zero, Nat.min_eq_left h.limit, if_neg (by omega),
    if_neg (by omega), if_neg hfailed, if_neg (by rw [hchecked]; decide)]

theorem commandText_append (head : List UInt8) :
    commandText head params = head ++ commandText [] params := rfl

/-- A text that begins with newlines, and has no other, is one line. -/
theorem messageLines_row {front row : List UInt8} {dmax : Nat} (hfront : ∀ b ∈ front, b = newline)
    (hrow : newline ∉ row) (hne : row ≠ []) (hdmax : (front ++ row).length ≤ dmax) :
    messageLines dmax (front ++ row) = [row] := by
  rw [messageLines, tokens_eq_words (by omega) hdmax, words_skip hfront, words_of_notMem hrow hne]

/-- With one name every message is a column. -/
theorem isColumnOfFields_single (line name : List UInt8) :
    isColumnOfFields 0 line (endFieldNames [name]) = true := by
  rw [endFieldNames, List.takeWhile_cons]
  split
  · rw [List.takeWhile_nil, isColumnOfFields]
    split <;> rfl
  · rfl

/-- The parameters are in one row, behind a text without an equals sign. -/
theorem ParsedCommand.rows (h : ParsedCommand size cmd params fields msgLen userBufLen)
    (hrow : OneRow cmd params) (hne : params ≠ []) :
    ∃ head, equals ∉ head ∧
      messageRows fields (commandText cmd params) = [commandText head params] := by
  have hparams := h.newline hrow
  have hnonempty : ∀ head, commandText head params ≠ [] := fun head hempty => by
    obtain ⟨param, rest, rfl⟩ := List.exists_cons_of_ne_nil hne
    have hpairs := (List.append_eq_nil_iff.mp hempty).2
    cases hpairs
  have hnames : allNames fields ≠ [] := by
    rw [h.names]
    simpa [namedValues] using hne
  rw [messageRows, cstr_of_notMem h.zero, Nat.min_eq_left h.limit, if_neg hnames]
  rw [columnOfParamsToRowConvert, List.take_length]
  split_ifs with hcolumn
  · refine ⟨cmd.map fun b => if b = Parse.newline then blank else b, fun hmem => ?_, ?_⟩
    · obtain ⟨b, hb, heq⟩ := List.mem_map.mp hmem
      split_ifs at heq with hnewline
      · exact absurd heq (by decide)
      · exact h.word.1 (heq ▸ hb)
    · have hmap : (commandText [] params).map (fun b => if b = Parse.newline then blank else b) =
          commandText [] params := by
        refine (List.map_congr_left fun b hb => ?_).trans (List.map_id _)
        exact if_neg fun heq : b = Parse.newline => hparams (heq ▸ hb)
      rw [commandText_append cmd, List.map_append, hmap, ← commandText_append]
      refine @messageLines_row [] _ _ (fun b hb => by cases hb) (fun hmem => ?_) (hnonempty _)
        (Nat.le_of_eq ?_)
      · rcases List.mem_append.mp hmem with hmem | hmem
        · obtain ⟨b, -, heq⟩ := List.mem_map.mp hmem
          split_ifs at heq with hnewline
          · exact absurd heq (by decide)
          · exact hnewline heq
        · exact hparams hmem
      · simp [commandText]
  · have hrest : Parse.newline ∉ cmd.dropWhile (· == Parse.newline) := by
      refine hrow.command.resolve_right fun hsingle => hcolumn ?_
      obtain ⟨param, rest, rfl⟩ := List.exists_cons_of_ne_nil hne
      obtain rfl : rest = [] := by
        rw [List.length_cons] at hsingle
        exact List.length_eq_zero_iff.mp (by omega)
      rw [h.names]
      exact List.all_eq_true.mpr fun line _ => isColumnOfFields_single line _
    have hsplit := List.takeWhile_append_dropWhile (p := (· == Parse.newline)) (l := cmd)
    refine ⟨cmd.dropWhile (· == Parse.newline), fun hmem =>
      h.word.1 ((List.dropWhile_suffix _).subset hmem), ?_⟩
    have htext : commandText cmd params = cmd.takeWhile (· == Parse.newline) ++
        commandText (cmd.dropWhile (· == Parse.newline)) params := by
      rw [commandText_append (cmd.dropWhile _), ← List.append_assoc, hsplit, ← commandText_append]
    rw [htext]
    refine messageLines_row (fun b hb => by simpa using List.mem_takeWhile_imp hb) (fun hmem => ?_)
      (hnonempty _) (Nat.le_refl _)
    rcases List.mem_append.mp hmem with hmem | hmem
    · exact hrest hmem
    · exact hparams hmem

/-- What the search for a parameter gives: a text that is too long is not found, and an empty text
is found with the blank behind it unless it is the last. -/
theorem ParsedCommand.parseNamed_eq (h : ParsedCommand size cmd params fields msgLen userBufLen)
    (hrow : OneRow cmd params) {head : List UInt8} (hhead : equals ∉ head) {i : Nat}
    {param : FieldToCmd} {f : FieldToParse} {name : List UInt8} (hparam : params[i]? = some param)
    (hnamed : NamedParam param f) (hname : f.name = some name) (before : Outputs) :
    parseNamed p (allNames fields) f name (commandText head params) 0 i before =
      some (
        if hostapdToDwpalValueStringLength ≤ (valueText param.value).length + 1 then (true, before)
        else storeField p f 0 i (if valueText param.value = [] ∧ i + 1 ≠ params.length then [blank]
          else valueText param.value) before) := by
  obtain ⟨hlt, hget⟩ := List.getElem?_eq_some_iff.mp hparam
  have hsplit : params = params.take i ++ param :: params.drop (i + 1) := by
    rw [← hget, ← List.drop_eq_getElem_cons hlt, List.take_append_drop]
  have hpname : param.name.getD [] = name := by
    rw [← hnamed.sameName, hname]
    rfl
  have hpairs : namedValues params = namedValues (params.take i) ++
      (name, valueText param.value) :: namedValues (params.drop (i + 1)) := by
    conv_lhs => rw [hsplit]
    rw [namedValues, List.map_append, List.map_cons, hpname]
    rfl
  have hlast : namedValues (params.drop (i + 1)) ≠ [] ↔ i + 1 ≠ params.length := by
    rw [namedValues, Ne, List.map_eq_nil_iff, List.drop_eq_nil_iff]
    omega
  have hwell := h.wellNamed
  have hnodup := h.nodup
  have hfits := h.namesFit hrow
  have hnames : ∀ name ∈ (namedValues params).map Prod.fst, IsName name := fun name hmem => by
    obtain ⟨pair, hpair, rfl⟩ := List.mem_map.mp hmem
    exact hwell.name pair hpair
  have hknown : ∀ pair ∈ namedValues params, pair.1 ∈ (namedValues params).map Prod.fst :=
    fun pair hpair => List.mem_map_of_mem hpair
  have hlength : name.length + 1 < dwpalFieldNameLength := by
    obtain ⟨name', hname', -, -, hlength⟩ := hnamed.name
    rw [hname', Option.getD_some] at hpname
    rwa [hpname] at hlength
  have hzero : 0 ∉ valueText param.value := fun hmem => (hnamed.text 0 hmem).2.2.2 rfl
  rw [h.names, commandText_eq, parseNamed, if_neg (by rw [hnamed.field]; decide)]
  rw [hpairs] at hwell hnodup hfits hnames hknown ⊢
  rw [fieldValuesGet_namedRow hnamed.isArray hfits hlength hwell hhead hnodup hnames hknown hzero]
  by_cases hlong : hostapdToDwpalValueStringLength ≤ (valueText param.value).length + 1
  · rw [if_pos hlong, if_pos hlong]
  · rw [if_neg hlong, if_neg hlong, hnamed.isArray]
    simp only [hlast]
    rfl

end Command

section Run

variable {p : Platform} {fields : List FieldToParse} {out before : Outputs} {i userBufLen : Nat}

theorem cleanupAllFields_before {l j : Nat} (h : j < i) :
    (cleanupAllFields out i fields).value l j = out.value l j := by
  induction fields generalizing out i with
  | nil => rfl
  | cons f fields ih =>
    rw [cleanupAllFields, ih (Nat.lt_succ_of_lt h)]
    have hne : ¬(l = 0 ∧ j = i) := fun heq => by omega
    split
    · rw [Outputs.store_value_of_ne _ _ _ _ hne]
      split <;> rfl
    · split <;> rfl

/-- A field of the first structure is set to zero. -/
theorem cleanupAllFields_zero {k : Nat} {f : FieldToParse} (hf : fields[k]? = some f)
    (hsize : getFieldSize f ≠ 0) : (cleanupAllFields out i fields).value 0 (i + k) =
      f.type.zero := by
  induction fields generalizing out i k with
  | nil => cases hf
  | cons g fields ih =>
    rw [cleanupAllFields]
    cases k with
    | zero =>
      cases hf
      change (cleanupAllFields _ (i + 1) fields).value 0 i = _
      rw [cleanupAllFields_before (Nat.lt_succ_self i), if_pos hsize, Outputs.store_value_self]
    | succ k =>
      rw [show i + (k + 1) = i + 1 + k by omega]
      exact ih hf

/-- A row is parsed if the searches for its fields do not fail. -/
theorem parseFields_succeeds {rest : List FieldToParse} {line : List UInt8} {lineIdx : Nat}
    {mandatory : Mandatory} {isFirst : Bool} (hbuf : lineIdx * sizeOfStruct fields < userBufLen)
    (h : ∀ k f, rest[k]? = some f →
      f.type ≠ .dummy ∧ ∃ name, f.name = some name ∧ ∀ before, ∃ after,
        parseNamed p (allNames fields) f name line lineIdx (i + k) before = some (true, after)) :
    ∃ out', parseFields p fields userBufLen line lineIdx i rest mandatory isFirst out =
      some (true, out') := by
  induction rest generalizing i mandatory isFirst out with
  | nil => exact ⟨out, rfl⟩
  | cons f rest ih =>
    obtain ⟨hdummy, name, hname, hparse⟩ := h 0 f rfl
    obtain ⟨after, hafter⟩ := hparse out
    have hfield : parseField p fields userBufLen line lineIdx i f mandatory isFirst out =
        some (true, after, mandatory) := by
      rw [Nat.add_zero] at hafter
      rw [parseField, if_neg (by omega), hname]
      dsimp only
      rw [hafter]
      rfl
    rw [parseFields, if_neg hdummy, hfield]
    refine ih fun k g hg => ?_
    rw [show i + 1 + k = i + (k + 1) by omega]
    exact h (k + 1) g hg

/-- Rows without fields are parsed. -/
theorem parseLines_noFields {lines : List (List UInt8)} {lineIdx : Nat} :
    parseLines p [] userBufLen lineIdx lines out = some (true, out) := by
  induction lines generalizing lineIdx with
  | nil => rfl
  | cons line lines ih => exact ih

/-- A field that is set with success gets a value. -/
theorem setField_some {f : FieldToParse} {s : List UInt8} (hdummy : f.type ≠ .dummy)
    (h : (setField p f s).1 = true) : ∃ value, setField p f s = (true, some value) := by
  rw [setField] at h ⊢
  cases htype : f.type with
  | dummy => exact absurd htype hdummy
  | str =>
    rw [htype] at h
    dsimp only at h ⊢
    split_ifs at h ⊢
    exact ⟨_, rfl⟩
  | hexstr =>
    rw [htype] at h
    dsimp only [dwpaldHexToStr] at h ⊢
    split_ifs at h ⊢
    exact ⟨_, Prod.ext h rfl⟩
  | strArray => rw [htype] at h; cases h
  | intArray => rw [htype] at h; cases h
  | hexArray => rw [htype] at h; cases h
  | _ => exact ⟨_, rfl⟩

/-- What a field is set to is stored. -/
theorem storeField_eq {f : FieldToParse} {s : List UInt8} {lineIdx : Nat} :
    (storeField p f lineIdx i s before).1 = (setField p f s).1 ∧
      ∀ value, (setField p f s).2 = some value →
        (storeField p f lineIdx i s before).2.value lineIdx i = value := by
  refine ⟨rfl, fun value hvalue => ?_⟩
  rw [storeField]
  dsimp only
  rw [hvalue]
  split <;> simp

end Run

section RoundTrip

variable {p : Platform} {param : FieldToCmd} {f : FieldToParse} {size msgLen userBufLen : Nat}
  {cmd : List UInt8} {params : List FieldToCmd} {fields : List FieldToParse} {out : Outputs}
  {last : Prop}

theorem Survives.text [Decidable last] (hnamed : NamedParam param f)
    (h : Survives p last param.value) :
    (if valueText param.value = [] ∧ ¬last then [blank] else valueText param.value) =
      valueText param.value := by
  refine if_neg fun hempty => ?_
  have hlast := h.2
  rcases valueText_eq_nil hempty.1 hnamed.scalar.1 hnamed.scalar.2 with hvalue | hvalue
  · rw [hvalue] at hlast
    exact hempty.2 (hlast rfl)
  · rw [hvalue] at hlast
    exact hempty.2 (hlast.1 rfl)

theorem Survives.hasText (hnamed : NamedParam param f) (h : Survives p last param.value) :
    HasText p param.value := by
  obtain ⟨hshort, hkind⟩ := h
  have hscalar := hnamed.scalar
  cases hvalue : param.value with
  | hexstr s =>
    rw [hvalue] at hshort hkind
    rw [valueText, length_hexOfByte] at hshort
    exact ⟨by omega, hkind.2⟩
  | dummy => exact absurd hvalue hscalar.1
  | array => exact absurd hvalue hscalar.2
  | _ => trivial

theorem NamedParam.hasText (hnamed : NamedParam param f) {text : List UInt8}
    (h : paramText p param.value = some (some text)) : HasText p param.value := by
  refine hasText_of_paramText hnamed.scalar (fun s hvalue => ?_) h
  have hshort := hnamed.short
  rw [hvalue, valueText, length_hexOfByte] at hshort
  omega

/-- A field that is set to the value of its parameter shows that the parameter survives. -/
theorem survives_of_setField [Decidable last] (hnamed : NamedParam param f)
    (htext : HasText p param.value)
    (hshort : (valueText param.value).length + 1 < hostapdToDwpalValueStringLength)
    (hset : setField p f (if valueText param.value = [] ∧ ¬last then [blank]
      else valueText param.value) = (true, some param.value.parsed)) :
    Survives p last param.value := by
  have hlast : valueText param.value = [] → last := fun hempty => by
    by_contra hnot
    rw [if_pos ⟨hempty, hnot⟩] at hset
    exact setField_blank hnamed (valueText_eq_nil hempty hnamed.scalar.1 hnamed.scalar.2) hset
  rw [if_neg fun hempty => hempty.2 (hlast hempty.1), setField, hnamed.sameType] at hset
  refine ⟨hshort, ?_⟩
  cases hvalue : param.value with
  | str s =>
    rw [hvalue] at hlast
    exact hlast
  | hexstr s =>
    rw [hvalue] at hlast htext
    exact ⟨fun hempty => hlast (by rw [hempty]; rfl), htext.2⟩
  | hex v =>
    rw [hvalue] at hset
    exact readScalar_hex (Option.some.inj (congrArg Prod.snd hset))
  | _ => trivial

theorem Survives.stored (h : ParsedCommand size cmd params fields msgLen userBufLen)
    (hrow : OneRow cmd params) {head : List UInt8} (hhead : equals ∉ head) {i : Nat}
    {name : List UInt8} (hparam : params[i]? = some param) (hnamed : NamedParam param f)
    (hname : f.name = some name)
    (hsurvives : Survives p (i + 1 = params.length) param.value) (before : Outputs) :
    ∃ after, parseNamed p (allNames fields) f name (commandText head params) 0 i before =
      some (true, after) ∧ after.value 0 i = param.value.parsed := by
  obtain ⟨hok, hwritten⟩ := @storeField_eq p before i f (valueText param.value) 0
  rw [setField_text hnamed hsurvives] at hok hwritten
  refine ⟨_, ?_, hwritten _ rfl⟩
  rw [h.parseNamed_eq hrow hhead hparam hnamed hname, if_neg (Nat.not_le.mpr hsurvives.1),
    hsurvives.text hnamed]
  exact congrArg some (Prod.ext hok rfl)

/-- What the parser stores for a parameter of a command that it parses. -/
theorem ParsedCommand.parsed (h : ParsedCommand size cmd params fields msgLen userBufLen)
    {head : List UInt8} {out' : Outputs} {i : Nat} (hparam : params[i]? = some param)
    (hrows : messageRows fields (commandText cmd params) = [commandText head params])
    (hparse : dwpaldHostapResponseParse p (some (commandText cmd params)) msgLen fields
      userBufLen out = some (true, out')) :
    ∃ f name before after, NamedParam param f ∧ f.name = some name ∧
      before.value 0 i = param.value.fieldType.zero ∧ out'.value 0 i = after.value 0 i ∧
      parseNamed p (allNames fields) f name (commandText head params) 0 i before =
        some (true, after) := by
  obtain ⟨f, hf, hnamed⟩ := h.param hparam
  obtain ⟨name, hname, -⟩ := hnamed.name
  rw [h.parse_eq, hrows] at hparse
  obtain ⟨line, row, hline, hrow', hfields⟩ := (parseLines_value hparse).2 0 _ rfl
  obtain ⟨before, after, hbefore, hafter, hstep⟩ := (parseFields_value hfields).2 i f hf
  simp only [Nat.zero_add] at hbefore hafter hstep hline hrow'
  have hzero : before.value 0 i = param.value.fieldType.zero := by
    rw [hbefore, hline, ← hnamed.sameType,
      ← @cleanupAllFields_zero fields out 0 i f hf hnamed.getFieldSize_ne, Nat.zero_add]
  cases hstep with
  | skipped hskip =>
    rcases hskip with hdummy | hfield
    · exact absurd hdummy hnamed.type_ne_dummy
    · rw [hnamed.field] at hfield
      cases hfield
  | positional hnone =>
    rw [hnamed.sameName, hname] at hnone
    cases hnone
  | named _ hsome hstored =>
    exact ⟨f, _, before, after, hnamed, hsome, hzero, (hrow' i).trans hafter, hstored⟩

/-- A parameter of a command that round-trips survives. -/
theorem RoundTrips.survives (h : ParsedCommand size cmd params fields msgLen userBufLen)
    (hrow : OneRow cmd params) (htrip : RoundTrips p size cmd params fields msgLen userBufLen out)
    {i : Nat} (hparam : params[i]? = some param) :
    Survives p (i + 1 = params.length) param.value := by
  obtain ⟨total, text, out', hbuild, hparse, hvalues⟩ := htrip
  have htexts : ∀ param ∈ params, HasText p param.value := fun param hmem => by
    obtain ⟨j, hj⟩ := List.mem_iff_getElem?.mp hmem
    obtain ⟨f, -, hnamed⟩ := h.param hj
    obtain ⟨text, htext⟩ := paramText_of_build hbuild hmem hnamed.scalar.1
    exact hnamed.hasText htext
  rw [dwpaldHostapCmdBuild_eq htexts h.fits] at hbuild
  obtain rfl : commandText cmd params = text :=
    congrArg Prod.snd (Option.some.inj (Option.some.inj hbuild))
  obtain ⟨head, hhead, hrows⟩ := h.rows hrow (List.ne_nil_of_mem (List.mem_of_getElem? hparam))
  obtain ⟨f, name, before, after, hnamed, hname, hzero, hafter, hstored⟩ :=
    h.parsed hparam hrows hparse
  have hvalue : after.value 0 i = param.value.parsed := by rw [← hafter, hvalues i param hparam]
  rw [h.parseNamed_eq hrow hhead hparam hnamed hname] at hstored
  by_cases hlong : hostapdToDwpalValueStringLength ≤ (valueText param.value).length + 1
  · -- the field is not found, and is left at zero
    rw [if_pos hlong] at hstored
    cases hstored
    have hle := length_valueText_of_zero (hzero.symm.trans hvalue)
    rw [hostapdToDwpalValueStringLength] at hlong
    omega
  · obtain ⟨hok, hwritten⟩ := @storeField_eq p before i f
      (if valueText param.value = [] ∧ i + 1 ≠ params.length then [blank]
        else valueText param.value) 0
    rw [if_neg hlong] at hstored
    rw [Option.some.inj hstored] at hok hwritten
    obtain ⟨value, hset⟩ := setField_some hnamed.type_ne_dummy hok.symm
    obtain rfl : value = param.value.parsed := by
      rw [← hvalue, hwritten value (congrArg Prod.snd hset)]
    exact survives_of_setField hnamed (htexts param (List.mem_of_getElem? hparam))
      (Nat.lt_of_not_le hlong) hset

/-- A command whose parameters survive is parsed to their values. -/
theorem ParsedCommand.roundTrips (h : ParsedCommand size cmd params fields msgLen userBufLen)
    (hrow : OneRow cmd params)
    (hsurvives : ∀ i param, params[i]? = some param →
      Survives p (i + 1 = params.length) param.value) :
    RoundTrips p size cmd params fields msgLen userBufLen out := by
  have htexts : ∀ param ∈ params, HasText p param.value := fun param hmem => by
    obtain ⟨i, hi⟩ := List.mem_iff_getElem?.mp hmem
    obtain ⟨f, -, hnamed⟩ := h.param hi
    exact (hsurvives i param hi).hasText hnamed
  by_cases hne : params = []
  · have hnone : fields = [] := by
      have hnamed := h.named
      rw [hne] at hnamed
      exact List.forall₂_nil_left_iff.mp hnamed
    have hparse : dwpaldHostapResponseParse p
        (some (commandText cmd params)) msgLen fields userBufLen
        out = some (true, cleanupAllFields out 0 fields) := by
      rw [h.parse_eq, hnone]
      exact parseLines_noFields
    refine ⟨_, _, _, dwpaldHostapCmdBuild_eq htexts h.fits, hparse, fun i param hparam => ?_⟩
    rw [hne] at hparam
    cases hparam
  obtain ⟨head, hhead, hrows⟩ := h.rows hrow hne
  obtain ⟨out', hfields⟩ : ∃ out', parseFields p fields userBufLen (commandText head params) 0 0
      fields none true (cleanupAllFields out 0 fields) = some (true, out') := by
    refine parseFields_succeeds (by rw [Nat.zero_mul]; exact h.room) fun i f hf => ?_
    obtain ⟨param, hparam, hnamed⟩ := h.field hf
    obtain ⟨name, hname, -⟩ := hnamed.name
    rw [← hnamed.sameName] at hname
    refine ⟨hnamed.type_ne_dummy, name, hname, fun before => ?_⟩
    rw [Nat.zero_add]
    obtain ⟨after, hafter, -⟩ :=
      (hsurvives i param hparam).stored h hrow hhead hparam hnamed hname before
    exact ⟨after, hafter⟩
  have hparse : dwpaldHostapResponseParse p (some (commandText cmd params)) msgLen fields userBufLen
      out = some (true, out') := by
    rw [h.parse_eq, hrows, parseLines, hfields]
    rfl
  refine ⟨_, _, out', dwpaldHostapCmdBuild_eq htexts h.fits, hparse, fun i param hparam => ?_⟩
  obtain ⟨f, name, before, after, hnamed, hname, -, hafter, hstored⟩ := h.parsed hparam hrows hparse
  obtain ⟨after', hstored', hvalue⟩ :=
    (hsurvives i param hparam).stored h hrow hhead hparam hnamed hname before
  rw [hstored'] at hstored
  obtain rfl : after' = after := congrArg Prod.snd (Option.some.inj hstored)
  rw [hafter, hvalue]

/-- A command round-trips exactly if every parameter of it survives. -/
theorem parameterRoundTrip (h : ParsedCommand size cmd params fields msgLen userBufLen)
    (hrow : OneRow cmd params) :
    RoundTrips p size cmd params fields msgLen userBufLen out ↔
      ∀ i param, params[i]? = some param → Survives p (i + 1 = params.length) param.value :=
  ⟨fun htrip _ _ hparam => htrip.survives h hrow hparam, h.roundTrips hrow⟩

end RoundTrip

/-- A number and a string. -/
def setParams (s : List UInt8) : List FieldToCmd :=
  [⟨.int (-5), some (ascii "a=")⟩, ⟨.str s, some (ascii "b=")⟩]

theorem setParams_named {s : List UInt8} (hroom : s.length < 8)
    (hs : ∀ b ∈ s, b ≠ blank ∧ b ≠ newline ∧ b ≠ equals ∧ b ≠ 0) :
    List.Forall₂ NamedParam (setParams s) numberAndName := by
  refine .cons ?_ (.cons ?_ .nil)
  · exact {
      scalar := by decide
      name := ⟨_, rfl, ⟨ascii "a", by decide⟩, by decide⟩
      text := List.forall_iff_forall_mem.mp (by decide)
      hexstr := nofun
      short := by decide
      sameName := rfl
      sameType := rfl
      field := rfl
      room := nofun }
  · exact {
      scalar := ⟨nofun, nofun⟩
      name := ⟨_, rfl, ⟨ascii "b", by decide⟩, by decide⟩
      text := hs
      hexstr := nofun
      short := Nat.lt_trans hroom (by decide)
      sameName := rfl
      sameType := rfl
      field := rfl
      room := fun s' hs' => by
        obtain rfl := CmdValue.str.inj (hs'.resolve_right nofun)
        exact hroom }

theorem parameterRoundTrip_set :
    RoundTrips platform64 20 (ascii "SET") (setParams (ascii "xyz")) numberAndName 14 12
      zeroOutputs := by
  have hcommand : ParsedCommand 20 (ascii "SET") (setParams (ascii "xyz")) numberAndName 14 12 :=
    { word := by decide
      notFailed := by decide
      named := setParams_named (by decide) (List.forall_iff_forall_mem.mp (by decide))
      distinct := by decide
      fits := by decide
      limit := by decide
      length := by decide
      room := by decide }
  refine (parameterRoundTrip hcommand ⟨by decide, by decide⟩).mpr fun i param hparam => ?_
  match i, hparam with
  | 0, rfl => exact ⟨by decide, trivial⟩
  | 1, rfl => exact ⟨by decide, nofun⟩

/-- An empty string in front of another parameter is read as a blank. -/
theorem emptyString_lost :
    ParsedCommand 20 (ascii "SET") (setParams []).reverse numberAndName.reverse 11 12 ∧
      OneRow (ascii "SET") (setParams []).reverse ∧
      ¬RoundTrips platform64 20 (ascii "SET") (setParams []).reverse numberAndName.reverse 11 12
        zeroOutputs := by
  refine ⟨?_, ⟨by decide, by decide⟩, ?_⟩
  · exact {
      word := by decide
      notFailed := by decide
      named := List.forall₂_reverse_iff.mpr (setParams_named (by decide) nofun)
      distinct := by decide
      fits := by decide
      limit := by decide
      length := by decide
      room := by decide }
  · rintro ⟨total, text, out', hbuild, hparse, hvalues⟩
    have htext : dwpaldHostapCmdBuild platform64 20 (ascii "SET") (setParams []).reverse =
        some (some (12, ascii "SET b= a=-5")) := by decide
    rw [htext] at hbuild
    obtain rfl : ascii "SET b= a=-5" = text :=
      congrArg Prod.snd (Option.some.inj (Option.some.inj hbuild))
    have hparsed := congrArg (Option.map fun result => result.2.value 0 0) hparse
    rw [Option.map_some, hvalues 0 _ rfl] at hparsed
    exact absurd hparsed (by decide)

end Dwpal.Parse
