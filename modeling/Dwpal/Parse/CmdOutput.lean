import Dwpal.Lib.Stores
import Dwpal.Parse.CmdBuild

/-! `dwpald_hostap_cmd_build` with the stores that it makes to its output. The library is taken to
be one whose `sprintf_s` returns a negative number, and leaves an empty string, where the text does
not fit. -/

namespace Dwpal.Parse

open CNumber Stores

/-- The loop over the parameters with the text `out` before it and `size` bytes left: the text
behind it, if it does not fail, and its stores. What `sprintf_s` cannot put into the bytes that are
left leaves an empty string. -/
def buildParamsStores (p : Platform) : (size : Nat) → (out : List UInt8) → List FieldToCmd →
    Option (Option (List UInt8) × List (Store UInt8))
  | _, out, [] => some (some out, [])
  | size, out, param :: params =>
    if param.value = .dummy then buildParamsStores p size out params
    else
      match paramText p param.value with
      | none => none
      | some none => some (none, [])
      | some (some text) =>
        let written := param.name.getD [] ++ text ++ [blank]
        if size ≤ written.length then some (none, [⟨out.length, [0]⟩])
        else
          (buildParamsStores p (size - written.length) (out ++ written) params).map
            fun (ret, stores) => (ret, ⟨out.length, written ++ [0]⟩ :: stores)

/-- What is done behind the loop: the last blank is removed, and the total is returned with it. -/
def finishCmd (size : Nat) (cmd : List UInt8) : Option (List UInt8) × List (Store UInt8) →
    Option Nat × List (Store UInt8)
  | (none, stores) => (none, ⟨0, List.replicate size 0⟩ :: ⟨0, cmd ++ [blank] ++ [0]⟩ :: stores)
  | (some text, stores) =>
    (some text.length, ⟨0, List.replicate size 0⟩ :: ⟨0, cmd ++ [blank] ++ [0]⟩ ::
      (stores ++ if text.getLast? = some blank then [⟨text.length - 1, [0]⟩] else []))

/-- `dwpald_hostap_cmd_build`: the length that it returns, `none` for -1, and its stores to the
output. `out` and `cmd` may be `NULL`; without `params` the list is empty. -/
def cmdBuildStores (p : Platform) (out : Bool) (size : Nat) (cmd : Option (List UInt8))
    (params : List FieldToCmd) : Option (Option Nat × List (Store UInt8)) :=
  match cmd with
  | none => some (none, [])
  | some cmd =>
    if out = false ∨ size = 0 then some (none, [])
    else if size ≤ cmd.length + 1 then some (none, [⟨0, List.replicate size 0⟩, ⟨0, [0]⟩])
    else
      (buildParamsStores p (size - (cmd.length + 1)) (cmd ++ [blank]) params).map
      (finishCmd size cmd)

/-- The parameters that are not dummies. -/
def usedParams (params : List FieldToCmd) : List FieldToCmd :=
  params.filter fun param => param.value ≠ .dummy

/-- What a call promises: a result, no store outside the output, and, unless it is -1, the command
with its parameters as a string in the output, whose length is returned. -/
def BuildsCmd (p : Platform) (out : Bool) (size : Nat) (cmd : Option (List UInt8))
    (params : List FieldToCmd) : Prop :=
  ∃ ret stores, cmdBuildStores p out size cmd params = some (ret, stores) ∧
    (∀ a, Touches stores a → a < size) ∧
    ∀ length, ret = some length → ∃ name ∈ cmd,
      length = (commandText name (usedParams params)).length ∧ length < size ∧
      ∀ m, bytesAt (runAll stores m) 0 (length + 1) = commandText name (usedParams params) ++ [0]

/-- A value whose text is known. -/
def Fine (p : Platform) (param : FieldToCmd) : Prop := param.value = .dummy ∨ HasText p param.value

/-- A type without a text, and a hex string that is longer than the buffer for it. -/
def RefusedParam (param : FieldToCmd) : Prop :=
  param.value = .array ∨ ∃ s, param.value = .hexstr s ∧ hostapdToDwpalValueStringLength ≤ s.length

/-- What the parameters add to the command, each with a blank behind it. -/
def paramPieces (params : List FieldToCmd) : List UInt8 :=
  (usedParams params).flatMap fun param => param.name.getD [] ++ valueText param.value ++ [blank]

/-- The parameters up to one that is refused or does not fit into the output. -/
def StopsAt (p : Platform) (size : Nat) (cmd : List UInt8) (params : List FieldToCmd) : Prop :=
  ∃ before param after, params = before ++ param :: after ∧ (∀ q ∈ before, Fine p q) ∧
    (RefusedParam param ∨ Fine p param ∧
      size ≤ (commandText cmd (usedParams (before ++ [param]))).length + 1)

/-- The same, seen from the loop with `size` bytes left. -/
def StopsIn (p : Platform) (size : Nat) (params : List FieldToCmd) : Prop :=
  ∃ before param after, params = before ++ param :: after ∧ (∀ q ∈ before, Fine p q) ∧
    (RefusedParam param ∨ Fine p param ∧ size ≤ (paramPieces (before ++ [param])).length)

section Params

variable {p : Platform} {size : Nat} {cmd : List UInt8} {param : FieldToCmd}
  {params params' : List FieldToCmd}

@[simp] theorem paramPieces_nil : paramPieces [] = [] := rfl

theorem paramPieces_append : paramPieces (params ++ params') =
    paramPieces params ++ paramPieces params' := by
  rw [paramPieces, usedParams, List.filter_append, List.flatMap_append]
  rfl

theorem paramPieces_dummy (h : param.value = .dummy) :
    paramPieces (param :: params) = paramPieces params := by
  rw [paramPieces, usedParams, List.filter_cons_of_neg (by simpa using h)]
  rfl

theorem paramPieces_cons (h : param.value ≠ .dummy) : paramPieces (param :: params) =
    param.name.getD [] ++ valueText param.value ++ [blank] ++ paramPieces params := by
  rw [paramPieces, usedParams, List.filter_cons_of_pos (by simpa using h), List.flatMap_cons]
  rfl

theorem length_commandText : (commandText cmd (usedParams params)).length =
    cmd.length + (paramPieces params).length := by
  have hlength := congrArg List.length (@commandText_blank cmd (usedParams params))
  simp only [List.length_append, List.length_singleton] at hlength
  rw [paramPieces]
  omega

theorem stopsAt_iff (h : cmd.length + 1 < size) :
    StopsAt p size cmd params ↔ StopsIn p (size - (cmd.length + 1)) params := by
  have hroom : ∀ qs, size ≤ (commandText cmd (usedParams qs)).length + 1 ↔
      size - (cmd.length + 1) ≤ (paramPieces qs).length := fun qs => by
    rw [length_commandText]
    omega
  simp only [StopsAt, StopsIn, hroom]

theorem not_stopsIn_nil : ¬StopsIn p size [] := by
  rintro ⟨before, param, after, heq, -⟩
  exact absurd heq.symm (by simp)

theorem stopsIn_cons : StopsIn p size (param :: params) ↔ RefusedParam param ∨ Fine p param ∧
    (size ≤ (paramPieces [param]).length ∨
      StopsIn p (size - (paramPieces [param]).length) params) := by
  have hroom : ∀ qs, size ≤ (paramPieces (param :: qs)).length ↔
      size - (paramPieces [param]).length ≤ (paramPieces qs).length := fun qs => by
    rw [show param :: qs = [param] ++ qs from rfl, paramPieces_append, List.length_append]
    omega
  constructor
  · rintro ⟨before, q, after, heq, hbefore, hstop⟩
    cases before with
    | nil =>
      obtain ⟨rfl, rfl⟩ := List.cons.inj heq
      exact hstop.imp_right fun h => ⟨h.1, .inl h.2⟩
    | cons first before =>
      obtain ⟨rfl, rfl⟩ := List.cons.inj heq
      obtain ⟨hfirst, hbefore⟩ := List.forall_mem_cons.mp hbefore
      refine .inr ⟨hfirst, .inr ⟨before, q, after, rfl, hbefore, ?_⟩⟩
      exact hstop.imp_right fun h => ⟨h.1, (hroom _).mp h.2⟩
  · rintro (hrefused | ⟨hfine, hlarge | ⟨before, q, after, rfl, hbefore, hstop⟩⟩)
    · exact ⟨[], param, params, rfl, fun q hq => absurd hq List.not_mem_nil, .inl hrefused⟩
    · exact ⟨[], param, params, rfl, fun q hq => absurd hq List.not_mem_nil, .inr ⟨hfine, hlarge⟩⟩
    · refine ⟨param :: before, q, after, rfl, List.forall_mem_cons.mpr ⟨hfine, hbefore⟩, ?_⟩
      exact hstop.imp_right fun h => ⟨h.1, (hroom _).mpr h.2⟩

theorem not_refusedParam_dummy (h : param.value = .dummy) : ¬RefusedParam param := by
  rintro (harray | ⟨s, hs, -⟩)
  · rw [h] at harray
    cases harray
  · rw [h] at hs
    cases hs

/-- A value has a text, is refused, or has no result. -/
theorem paramText_cases (hdummy : param.value ≠ .dummy) :
    HasText p param.value ∧ ¬RefusedParam param ∧
        paramText p param.value = some (some (valueText param.value)) ∨
      RefusedParam param ∧ paramText p param.value = some none ∨
      ¬RefusedParam param ∧ ¬HasText p param.value ∧ paramText p param.value = none := by
  obtain ⟨value, name⟩ := param
  cases value with
  | dummy => exact absurd rfl hdummy
  | array => exact .inr (.inl ⟨.inl rfl, rfl⟩)
  | hexstr s =>
    have hrefused : RefusedParam ⟨.hexstr s, name⟩ ↔
        hostapdToDwpalValueStringLength ≤ s.length := by
      constructor
      · rintro (harray | ⟨s', hs, hle⟩)
        · cases harray
        · cases hs
          exact hle
      · exact fun hle => .inr ⟨s, rfl, hle⟩
    by_cases hlong : hostapdToDwpalValueStringLength ≤ s.length
    · refine .inr (.inl ⟨hrefused.mpr hlong, ?_⟩)
      have hlimit : hostapdToDwpalValueStringLength = 4096 := rfl
      change dwpaldStrToHex p (min s.length (hostapdToDwpalValueStringLength - 1) * 2 + 1) s = _
      rw [dwpaldStrToHex, if_pos (by omega)]
    · by_cases hlow : p.charSigned = true → ∀ b ∈ s, b < 128
      · have htext : HasText p (.hexstr s) := ⟨Nat.not_le.mp hlong, hlow⟩
        exact .inl ⟨htext, mt hrefused.mp hlong, paramText_eq htext⟩
      · refine .inr (.inr ⟨mt hrefused.mp hlong, fun h => hlow h.2, ?_⟩)
        simp only [not_forall] at hlow
        obtain ⟨hsigned, b, hb, hneg⟩ := hlow
        change paramText p (.hexstr s) = none
        rw [paramText_hexstr (Nat.not_le.mp hlong),
          mapM_charToHex_none hsigned hb (UInt8.not_lt.mp hneg)]
        rfl
  | _ =>
    refine .inl ⟨trivial, ?_, rfl⟩
    rintro (harray | ⟨s, hs, -⟩)
    · cases harray
    · cases hs

end Params

section Loop

variable {p : Platform} {size : Nat} {out text : List UInt8} {params : List FieldToCmd}
  {ret : Option (List UInt8)} {stores : List (Store UInt8)}

/-- The loop fails, and returns, just where a parameter stops it. -/
theorem buildParamsStores_none (hsize : 0 < size) :
    (∃ stores, buildParamsStores p size out params = some (none, stores)) ↔
      StopsIn p size params := by
  induction params generalizing size out with
  | nil => exact iff_of_false (by rintro ⟨stores, h⟩; cases h) not_stopsIn_nil
  | cons param params ih =>
    rw [stopsIn_cons, buildParamsStores]
    by_cases hdummy : param.value = .dummy
    · have hnone : (paramPieces [param]).length = 0 := by rw [paramPieces_dummy hdummy]; rfl
      rw [if_pos hdummy, ih hsize, or_iff_right (not_refusedParam_dummy hdummy), hnone,
        Nat.sub_zero, and_iff_right (.inl hdummy), or_iff_right (by omega)]
    · rw [if_neg hdummy]
      rcases @paramText_cases p _ hdummy with
        ⟨hfine, hnot, htext⟩ | ⟨hrefused, htext⟩ | ⟨hnot, hfine, htext⟩
      · rw [htext, or_iff_right hnot, and_iff_right (.inr hfine), paramPieces_cons hdummy,
          paramPieces_nil, List.append_nil]
        dsimp only
        split_ifs with hlarge
        · exact iff_of_true ⟨_, rfl⟩ (.inl hlarge)
        · rw [or_iff_right hlarge,
            ← @ih _ (out ++ (param.name.getD [] ++ valueText param.value ++ [blank])) (by omega)]
          constructor
          · rintro ⟨stores, h⟩
            obtain ⟨⟨ret, rest⟩, hrest, heq⟩ := Option.map_eq_some_iff.mp h
            obtain ⟨rfl, -⟩ := Prod.mk.inj heq
            exact ⟨rest, hrest⟩
          · rintro ⟨rest, hrest⟩
            exact ⟨_, by rw [hrest]; rfl⟩
      · rw [htext]
        exact iff_of_true ⟨_, rfl⟩ (.inl hrefused)
      · rw [htext]
        refine iff_of_false (by rintro ⟨stores, h⟩; cases h) ?_
        rintro (hrefused | ⟨hdummy' | hfine', -⟩)
        · exact hnot hrefused
        · exact hdummy hdummy'
        · exact hfine hfine'

theorem touches_buildParamsStores (hsize : 0 < size)
    (h : buildParamsStores p size out params = some (ret, stores)) (a : Nat)
    (ha : Touches stores a) : out.length ≤ a ∧ a < out.length + size := by
  induction params generalizing size out ret stores with
  | nil =>
    obtain ⟨-, rfl⟩ := Prod.mk.inj (Option.some.inj h)
    exact absurd ha not_touches_nil
  | cons param params ih =>
    rw [buildParamsStores] at h
    by_cases hdummy : param.value = .dummy
    · rw [if_pos hdummy] at h
      exact ih hsize h ha
    · rw [if_neg hdummy] at h
      split at h
      · cases h
      · obtain ⟨-, rfl⟩ := Prod.mk.inj (Option.some.inj h)
        exact absurd ha not_touches_nil
      · dsimp only at h
        split_ifs at h with hlarge
        · obtain ⟨-, rfl⟩ := Prod.mk.inj (Option.some.inj h)
          have hcovers := (Writes.single.touches a).mp ha
          simp only [List.length_singleton] at hcovers
          omega
        · obtain ⟨⟨ret, rest⟩, hrest, heq⟩ := Option.map_eq_some_iff.mp h
          obtain ⟨-, rfl⟩ := Prod.mk.inj heq
          rcases touches_cons.mp ha with hcovers | ha
          · obtain ⟨hle, hlt⟩ := hcovers
            simp only [List.length_append, List.length_singleton] at hle hlt hlarge
            omega
          · have hrange := ih (by omega) hrest ha
            simp only [List.length_append] at hrange hlarge
            omega

/-- The text behind the loop, and what its stores leave behind a terminator. -/
theorem buildParamsStores_some (hsize : 0 < size)
    (h : buildParamsStores p size out params = some (some text, stores)) :
    text = out ++ paramPieces params ∧ (paramPieces params).length < size ∧
      ∀ m, m out.length = 0 → bytesAt (runAll stores m) out.length
        (paramPieces params ++ [0]).length = paramPieces params ++ [0] := by
  induction params generalizing size out stores with
  | nil =>
    obtain ⟨hret, rfl⟩ := Prod.mk.inj (Option.some.inj h)
    obtain rfl := Option.some.inj hret
    refine ⟨(List.append_nil _).symm, hsize, fun m hm => ?_⟩
    rw [runAll_nil]
    exact congrArg (fun b => [b]) hm
  | cons param params ih =>
    rw [buildParamsStores] at h
    by_cases hdummy : param.value = .dummy
    · rw [if_pos hdummy] at h
      rw [paramPieces_dummy hdummy]
      exact ih hsize h
    · rw [if_neg hdummy] at h
      rcases @paramText_cases p _ hdummy with ⟨-, -, htext⟩ | ⟨-, htext⟩ | ⟨-, -, htext⟩
      · rw [htext] at h
        dsimp only at h
        split_ifs at h with hlarge
        · cases h
        · obtain ⟨⟨ret, rest⟩, hrest, heq⟩ := Option.map_eq_some_iff.mp h
          dsimp only at heq
          obtain ⟨rfl, rfl⟩ := Prod.mk.inj heq
          rw [paramPieces_cons hdummy]
          generalize param.name.getD [] ++ valueText param.value ++ [blank] = written at *
          obtain ⟨rfl, hlength, hleft⟩ := ih (by omega) hrest
          refine ⟨List.append_assoc .., by rw [List.length_append]; omega, fun m hm => ?_⟩
          have hassoc : written ++ paramPieces params ++ [0] =
              written ++ (paramPieces params ++ [0]) :=
            List.append_assoc ..
          rw [hassoc]
          refine bytesAt_runAll_begin (List.prefix_append written [0]) (fun b hb => ?_) ?_
          · have hrange := touches_buildParamsStores (by omega) hrest b hb
            rw [List.length_append] at hrange
            exact hrange.1
          · have hzero : (⟨out.length, written ++ [0]⟩ : Store UInt8).run m
              (out ++ written).length = 0 := by
              rw [List.length_append]
              exact Store.run_of_covers (by simp)
            have hbehind := hleft _ hzero
            rwa [List.length_append] at hbehind
      · rw [htext] at h
        cases h
      · rw [htext] at h
        cases h

/-- The loop with its stores builds what the loop on texts builds. -/
theorem buildParamsStores_fst (hsize : 0 < size) :
    (buildParamsStores p size out params).map Prod.fst = buildParams p size out params := by
  induction params generalizing size out with
  | nil => rfl
  | cons param params ih =>
    rw [buildParamsStores, buildParams, paramWritten]
    by_cases hdummy : param.value = .dummy
    · rw [if_pos hdummy, if_pos hdummy, ih hsize]
      dsimp only
      rw [if_neg (by simpa using Nat.pos_iff_ne_zero.mp hsize), List.length_nil, Nat.sub_zero,
        List.append_nil]
    · rw [if_neg hdummy, if_neg hdummy]
      cases paramText p param.value with
      | none => rfl
      | some text =>
        cases text with
        | none => rfl
        | some text =>
          simp only [Option.map_some]
          split_ifs with hlarge
          · rfl
          · rw [← ih (by omega), Option.map_map]
            rfl

end Loop

section Call

variable {p : Platform} {out : Bool} {size length : Nat} {cmd : Option (List UInt8)}
  {name : List UInt8} {params : List FieldToCmd} {ret : Option Nat} {stores : List (Store UInt8)}

/-- A call that gets as far as its loop. -/
theorem cmdBuildStores_eq (hout : out = true) (hsize : name.length + 1 < size) :
    cmdBuildStores p out size (some name) params =
      (buildParamsStores p (size - (name.length + 1)) (name ++ [blank]) params).map
        (finishCmd size name) := by
  rw [cmdBuildStores, if_neg, if_neg (by omega)]
  rintro (hfalse | hzero)
  · rw [hout] at hfalse
    cases hfalse
  · omega

/-- A call that does not. -/
theorem cmdBuildStores_fails (h : out = false ∨ cmd = none ∨ ∃ name ∈ cmd, size ≤ name.length + 1) :
    ∃ stores, cmdBuildStores p out size cmd params = some (none, stores) ∧
      ∀ a, Touches stores a → a < size := by
  cases cmd with
  | none => exact ⟨[], rfl, fun a ha => absurd ha not_touches_nil⟩
  | some name =>
    rw [cmdBuildStores]
    split_ifs with hnull hsize
    · exact ⟨[], rfl, fun a ha => absurd ha not_touches_nil⟩
    · refine ⟨_, rfl, fun a ha => ?_⟩
      rw [not_or] at hnull
      rcases touches_cons.mp ha with hcovers | ha
      · have hlt := hcovers.2
        simp only [List.length_replicate] at hlt
        omega
      · exact Writes.single.inside (by simp only [List.length_singleton]; omega) a ha
    · rcases h with hout | hcmd | ⟨name', hname, hle⟩
      · exact absurd (.inl hout) hnull
      · cases hcmd
      · cases hname
        exact absurd hle hsize

/-- Behind the loop no store is outside the output. -/
theorem finishCmd_inside {result : Option (List UInt8) × List (Store UInt8)}
    (hsize : name.length + 1 < size)
    (hloop : buildParamsStores p (size - (name.length + 1)) (name ++ [blank]) params = some result)
    (a : Nat) (ha : Touches (finishCmd size name result).2 a) : a < size := by
  obtain ⟨text, stores⟩ := result
  have hrange := touches_buildParamsStores (by omega) hloop a
  simp only [List.length_append, List.length_singleton] at hrange
  have hfirst : ∀ rest,
      Touches (⟨0, List.replicate size 0⟩ :: ⟨0, name ++ [blank] ++ [0]⟩ :: rest) a →
      a < size ∨ Touches rest a := fun rest hrest => by
    simp only [touches_cons, Store.Covers, List.length_replicate, List.length_append,
      List.length_singleton] at hrest
    rcases hrest with hcovers | hcovers | hrest
    · exact .inl (by omega)
    · exact .inl (by omega)
    · exact .inr hrest
  cases text with
  | none =>
    rcases hfirst _ ha with hlt | hmore
    · exact hlt
    · exact (by have hbound := hrange hmore; omega)
  | some text =>
    obtain ⟨htext, hlength, -⟩ := buildParamsStores_some (by omega) hloop
    rcases hfirst _ ha with hlt | hmore
    · exact hlt
    · rcases touches_append.mp hmore with hmore | hlast
      · have hbound := hrange hmore
        omega
      · split_ifs at hlast
        · have hcovers := (Writes.single.touches a).mp hlast
          rw [htext] at hcovers
          simp only [List.length_append, List.length_singleton] at hcovers
          omega
        · exact absurd hlast not_touches_nil

/-- The string that is built, and the length that is returned, which counts the blank that is
removed. -/
theorem cmdBuildStores_some
    (h : cmdBuildStores p out size (some name) params = some (some length, stores)) :
    length = (commandText name (usedParams params)).length + 1 ∧
      ∀ m, bytesAt (runAll stores m) 0 (commandText name (usedParams params) ++ [0]).length =
        commandText name (usedParams params) ++ [0] := by
  have hearly : ¬(out = false ∨ some name = none ∨ ∃ name' ∈ some name, size ≤ name'.length + 1) :=
      fun hfails => by
    obtain ⟨stores', hnone, -⟩ := @cmdBuildStores_fails p _ _ _ params hfails
    rw [hnone] at h
    cases h
  simp only [not_or, Option.mem_def, Option.some.injEq, exists_eq_left', not_le] at hearly
  obtain ⟨hout, -, hsize⟩ := hearly
  rw [cmdBuildStores_eq (by simpa using hout) hsize] at h
  obtain ⟨⟨text, rest⟩, hloop, hfinish⟩ := Option.map_eq_some_iff.mp h
  cases text with
  | none => cases hfinish
  | some text =>
    obtain ⟨htext, -, hleft⟩ := buildParamsStores_some (by omega) hloop
    have hblank : text = commandText name (usedParams params) ++ [blank] :=
      htext.trans commandText_blank
    rw [finishCmd, hblank, List.getLast?_concat, if_pos rfl] at hfinish
    obtain ⟨hlength, rfl⟩ := Prod.mk.inj hfinish
    rw [List.length_append] at hlength hfinish ⊢
    refine ⟨(Option.some.inj hlength).symm, fun m => ?_⟩
    rw [runAll_cons, ← List.cons_append, runAll_append]
    generalize (⟨0, List.replicate size 0⟩ : Store UInt8).run m = m'
    have hbuilt : bytesAt (runAll (⟨0, name ++ [blank] ++ [0]⟩ :: rest) m') 0 (text ++ [0]).length =
        text ++ [0] := by
      have hassoc : text ++ [0] = name ++ [blank] ++ (paramPieces params ++ [0]) := by
        rw [htext, List.append_assoc]
      rw [hassoc]
      refine bytesAt_runAll_begin (List.prefix_append (name ++ [blank]) [0]) (fun b hb => ?_) ?_
      · have hrange := touches_buildParamsStores (by omega) hloop b hb
        exact Nat.zero_add _ ▸ hrange.1
      · rw [Nat.zero_add]
        refine hleft _ ?_
        have hzero := @Store.run_of_covers _ ⟨0, name ++ [blank] ++ [0]⟩ m'
          (name ++ [blank]).length 0 (by simp)
        rwa [Nat.zero_add] at hzero
    rw [hblank] at hbuilt
    generalize commandText name (usedParams params) = command at hbuilt ⊢
    refine bytesAt_eq_iff.mpr fun k b hb => ?_
    have hlt := (List.getElem?_eq_some_iff.mp hb).1
    rw [List.length_append, List.length_singleton] at hlt
    rw [runAll_cons, runAll_nil, Nat.zero_add]
    rcases Nat.lt_or_eq_of_le (Nat.le_of_lt_succ hlt) with hbefore | rfl
    · rw [List.getElem?_append_left hbefore] at hb
      have hread := bytesAt_eq_iff.mp hbuilt k b (by
        rw [List.append_assoc, List.getElem?_append_left hbefore, hb])
      rw [Nat.zero_add] at hread
      rw [Store.run_of_not_covers, hread]
      rintro ⟨hle, -⟩
      simp only [List.length_singleton] at hle
      omega
    · rw [List.getElem?_concat_length] at hb
      obtain rfl := Option.some.inj hb
      have hlast := @Store.run_of_covers _ ⟨command.length + [blank].length - 1, [0]⟩
        (runAll (⟨0, name ++ [blank] ++ [0]⟩ :: rest) m') 0 0 rfl
      exact hlast

theorem cmdBuildStores_none (hout : out = true) (hsize : name.length + 1 < size) :
    (∃ stores, cmdBuildStores p out size (some name) params = some (none, stores)) ↔
      StopsAt p size name params := by
  rw [stopsAt_iff hsize, ← @buildParamsStores_none _ _ (name ++ [blank]) _ (by omega),
    cmdBuildStores_eq hout hsize]
  constructor
  · rintro ⟨stores, h⟩
    obtain ⟨⟨text, rest⟩, hloop, hfinish⟩ := Option.map_eq_some_iff.mp h
    cases text with
    | none => exact ⟨rest, hloop⟩
    | some text => cases hfinish
  · rintro ⟨rest, hloop⟩
    exact ⟨_, by rw [hloop]; rfl⟩

/-- A call keeps its promise only where it returns -1: the length of a string that it builds counts
the blank that it removes. -/
theorem buildsCmd_iff (p : Platform) (out : Bool) (size : Nat) (cmd : Option (List UInt8))
    (params : List FieldToCmd) : BuildsCmd p out size cmd params ↔
      out = false ∨ cmd = none ∨ ∃ name ∈ cmd, size ≤ name.length + 1 ∨
      StopsAt p size name params := by
  constructor
  · rintro ⟨ret, stores, hbuild, -, hpromise⟩
    cases ret with
    | some length =>
      obtain ⟨name, hname, hlength, -⟩ := hpromise length rfl
      cases hname
      have hcounted := (cmdBuildStores_some hbuild).1
      omega
    | none =>
      by_contra hnot
      simp only [not_or, not_exists, not_and] at hnot
      obtain ⟨hout, hcmd, hname⟩ := hnot
      obtain ⟨name, rfl⟩ := Option.ne_none_iff_exists'.mp hcmd
      obtain ⟨hsize, hstops⟩ := hname name rfl
      exact hstops ((cmdBuildStores_none (by simpa using hout) (by omega)).mp ⟨stores, hbuild⟩)
  · intro h
    by_cases hearly : out = false ∨ cmd = none ∨ ∃ name ∈ cmd, size ≤ name.length + 1
    · obtain ⟨stores, hbuild, hinside⟩ := @cmdBuildStores_fails p _ _ _ params hearly
      exact ⟨none, stores, hbuild, hinside, nofun⟩
    · simp only [not_or, not_exists, not_and, Nat.not_le] at hearly
      obtain ⟨hout, hcmd, hsize⟩ := hearly
      obtain ⟨name, hname, hstops⟩ := (h.resolve_left hout).resolve_left hcmd
      cases hname
      obtain ⟨stores, hbuild⟩ := (cmdBuildStores_none (by simpa using hout) (hsize name rfl)).mpr
        (hstops.resolve_left (Nat.not_le.mpr (hsize name rfl)))
      refine ⟨none, stores, hbuild, fun a ha => ?_, nofun⟩
      rw [cmdBuildStores_eq (by simpa using hout) (hsize name rfl)] at hbuild
      obtain ⟨result, hloop, hfinish⟩ := Option.map_eq_some_iff.mp hbuild
      exact finishCmd_inside (hsize name rfl) hloop a (by rw [hfinish]; exact ha)

/-- The call with its stores returns what the call on texts returns. -/
theorem cmdBuildStores_fst : (cmdBuildStores p true size (some name) params).map Prod.fst =
    (dwpaldHostapCmdBuild p size name params).map (Option.map Prod.fst) := by
  rw [dwpaldHostapCmdBuild]
  by_cases hsize : size ≤ name.length + 1
  · obtain ⟨stores, hnone, -⟩ :=
      @cmdBuildStores_fails p true _ _ params (.inr (.inr ⟨name, rfl, hsize⟩))
    rw [if_pos hsize, hnone]
    rfl
  · rw [if_neg hsize, cmdBuildStores_eq rfl (by omega), ← buildParamsStores_fst (by omega),
      Option.map_map, Option.map_map, Option.map_map]
    refine congrArg (fun f => Option.map f _) (funext fun result => ?_)
    obtain ⟨text, rest⟩ := result
    cases text with
    | none => rfl
    | some text => rfl

/-- The length of `PING` is returned as 5. -/
theorem ping_miscounted : ¬BuildsCmd platform64 true 16 (some (ascii "PING")) [] := by
  rintro ⟨ret, stores, hbuild, -, hpromise⟩
  cases hbuild
  obtain ⟨name, hname, hlength, -⟩ := hpromise 5 rfl
  cases hname
  exact absurd hlength (by decide)

end Call

end Dwpal.Parse
