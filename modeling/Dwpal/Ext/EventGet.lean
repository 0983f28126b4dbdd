import Dwpal.Daemon.IfaceManager
import Dwpal.Lib.CText
import Dwpal.Lib.Stores
import Dwpal.Parse.Fields

/-! `dwpal_hostap_event_get`: an event from the socket of hostapd, and the op-code that is cut from
it. -/

namespace Dwpal.Ext

open CText Stores
open Daemon (DwpalRet)
open Parse (blank)

def dwpalOpcodeStringLength : Nat := 64

/-- `'>'`. -/
def greater : UInt8 := 62

/-- A connection: what `wpa_ctrl_pending` gives, and what `recv` receives, if it does not fail. -/
structure WpaCtrl where
  pending : Int
  received : Option (List UInt8)

/-- The part of `DWPAL_Context` that is about hostapd. -/
structure EventContext where
  wpaCtrlEventCallback : Bool
  listenerWpaCtrlPtr : Option WpaCtrl
  wpaCtrlPtr : Option WpaCtrl

/-- The connection of events, one-way or two-way. -/
def EventContext.eventCtrl (context : EventContext) : Option WpaCtrl :=
  if context.wpaCtrlEventCallback then context.wpaCtrlPtr else context.listenerWpaCtrlPtr

/-- The arguments, which may be `NULL`: the buffer `msg` has `*msgLen` bytes. -/
structure EventGetArgs where
  context : Option EventContext
  msg : Bool
  msgLen : Option Nat
  opCode : Bool

/-- What a call leaves: whether it holds the lock, `*msgLen` if it was written, and its stores to
the two buffers. -/
structure EventGot where
  res : DwpalRet
  locked : Bool
  msgLen : Option Nat
  msg : List (Store UInt8)
  opCode : List (Store UInt8)

/-- A return without a message. -/
def noEvent (res : DwpalRet) : EventGot := ⟨res, false, none, [], []⟩

/-- The token that the two calls of `strtok_s` give. -/
def localOpCode (dmaxLen : Nat) (localMsg : List UInt8) : Option (List UInt8) :=
  match strtokS greater dmaxLen localMsg with
  | none => none
  | some (_, p2str, dmaxLen) => (strtokS blank dmaxLen p2str).map Prod.fst

/-- `strcpy_s(opCode, strnlen_s(localOpCode, DWPAL_OPCODE_STRING_LENGTH) + 1, localOpCode)`, which
leaves an empty string where it fails. -/
def copyOpCode : Option (List UInt8) → List (Store UInt8)
  | none => [⟨0, [0]⟩]
  | some token =>
    if token.length < min token.length dwpalOpcodeStringLength + 1 then [⟨0, token ++ [0]⟩]
    else [⟨0, [0]⟩]

/-- What is done with a message; `dup` says whether its copy is allocated. -/
def storeEvent (dup : Bool) (bytes : List UInt8) : EventGot :=
  let msg := [⟨0, bytes⟩, ⟨bytes.length, [0]⟩]
  if bytes.length ≤ 5 then ⟨.failure, false, some bytes.length, msg, []⟩
  else if dup = false then ⟨.failure, true, some bytes.length, msg, []⟩
  else
    ⟨.success, false, some bytes.length, msg, copyOpCode (localOpCode bytes.length (cstr bytes))⟩

/-- A message is received into a buffer of `msgLen` bytes, which cuts it. -/
def eventRead (dup : Bool) (msgLen : Nat) (ctrl : WpaCtrl) : EventGot :=
  if ctrl.pending = 0 then noEvent .noPendingMessages
  else if ctrl.pending ≠ 1 then noEvent .failure
  else
    match ctrl.received with
    | none => noEvent .failure
    | some bytes => storeEvent dup (bytes.take msgLen)

/-- `dwpal_hostap_event_get`. The check of the arguments sets a variable that is not returned. -/
def dwpalHostapEventGet (dup : Bool) (args : EventGetArgs) : EventGot :=
  match args.context, args.msgLen with
  | some context, some msgLen =>
    if args.msg = false ∨ args.opCode = false then noEvent .success
    else
      match context.eventCtrl with
      | none => noEvent .failure
      | some ctrl => eventRead dup msgLen ctrl
  | _, _ => noEvent .success

/-- The token between the `'>'` and the next space of a message. -/
def OpCodeOf (text token : List UInt8) : Prop :=
  ∃ before rest, text = before ++ greater :: (token ++ blank :: rest) ∧ greater ∉ before ∧
    token ≠ [] ∧ blank ∉ token

/-- What is asked of a call. -/
structure EventGotRight (args : EventGetArgs) (got : EventGot) : Prop where
  unlocked : got.locked = false
  msg_inside : ∀ a, Touches got.msg a → ∃ msgLen ∈ args.msgLen, a < msgLen
  opCode_inside : ∀ a, Touches got.opCode a → a < dwpalOpcodeStringLength
  success : got.res = .success → ∃ bytes token, 5 < bytes.length ∧ got.msgLen = some bytes.length ∧
    (∀ m, bytesAt (runAll got.msg m) 0 bytes.length = bytes) ∧ OpCodeOf (cstr bytes) token ∧
    ∀ m, bytesAt (runAll got.opCode m) 0 (token ++ [0]).length = token ++ [0]

/-- The first word behind the first `'>'` that has something other than it in front of it. -/
def WordBehind (text token : List UInt8) : Prop :=
  ∃ skipped head blanks rest, text = skipped ++ head ++ greater :: (blanks ++ token ++ rest) ∧
    (∀ b ∈ skipped, b = greater) ∧ head ≠ [] ∧ greater ∉ head ∧ (∀ b ∈ blanks, b = blank) ∧
    token ≠ [] ∧ blank ∉ token ∧ ∀ b ∈ rest.head?, b = blank

/-- A message that the call handles: it has a token that fits into the buffer, and the copy of the
message is allocated. -/
def EventFits (dup : Bool) (text : List UInt8) : Prop :=
  dup = true ∧ ∃ token, OpCodeOf text token ∧ token.length < dwpalOpcodeStringLength ∧
    (text.head? = some greater → WordBehind text token)

section OpCode

variable {dmax : Nat} {text token : List UInt8}

/-- The word that is cut, for a text of which all may be read. -/
theorem localOpCode_iff (hdmax : text.length ≤ dmax) :
    localOpCode dmax text = some token ↔ WordBehind text token := by
  constructor
  · intro h
    rw [localOpCode] at h
    obtain ⟨skipped, head, hskipped, hgreater, ⟨-, hcall⟩ | ⟨hhead, behind, htext, hcall⟩⟩ :=
      strtokS_split greater dmax text
    · rw [hcall] at h
      split_ifs at h
      cases h
    · rw [hcall] at h
      split_ifs at h
      obtain ⟨found, hfound, heq⟩ := Option.map_eq_some_iff.mp h
      obtain ⟨blanks, word, hblanks, hblank, ⟨hbehind, hword⟩ | ⟨hne, rest, hbehind, hword⟩⟩ :=
        strtokS_split blank (dmax - (skipped.length + head.length + 1)) behind
      · rw [hword] at hfound
        split_ifs at hfound with hnone
        obtain rfl := Option.some.inj hfound
        obtain rfl := heq
        refine ⟨skipped, head, blanks, [], ?_, hskipped, hhead, hgreater, hblanks,
          (not_or.mp hnone).1, hblank, nofun⟩
        rw [htext, hbehind, List.append_nil]
      · rw [hword] at hfound
        split_ifs at hfound
        obtain rfl := Option.some.inj hfound
        obtain rfl := heq
        refine ⟨skipped, head, blanks, blank :: rest, ?_, hskipped, hhead, hgreater, hblanks, hne,
          hblank, fun b hb => (Option.some.inj hb).symm⟩
        rw [htext, hbehind]
  · rintro ⟨skipped, head, blanks, rest, rfl, hskipped, hhead, hgreater, hblanks, hne,
      hblank, hrest⟩
    simp only [List.length_append, List.length_cons] at hdmax
    rw [localOpCode, strtokS_delim hskipped hhead hgreater (by omega)]
    dsimp only
    cases rest with
    | nil =>
      rw [List.append_nil, strtokS_end hblanks hne hblank (by omega)]
      rfl
    | cons b rest =>
      obtain rfl := hrest b rfl
      rw [List.length_cons] at hdmax
      rw [strtokS_delim hblanks hne hblank (by omega)]
      rfl

/-- A message with its token behind something that is cut off. -/
theorem OpCodeOf.wordBehind (h : OpCodeOf text token) (hhead : text.head? ≠ some greater) :
    WordBehind text token := by
  obtain ⟨before, rest, rfl, hbefore, hne, hblank⟩ := h
  refine ⟨[], before, [], blank :: rest, by simp, nofun, ?_, hbefore, nofun, hne, hblank,
    fun b hb => (Option.some.inj hb).symm⟩
  rintro rfl
  exact hhead rfl

theorem OpCodeOf.ne_nil (h : OpCodeOf text token) : token ≠ [] := by
  obtain ⟨before, rest, -, -, hne, -⟩ := h
  exact hne

theorem OpCodeOf.subset (h : OpCodeOf text token) : token ⊆ text := by
  obtain ⟨before, rest, rfl, -⟩ := h
  intro b hb
  simp [hb]

theorem WordBehind.subset (h : WordBehind text token) : token ⊆ text := by
  obtain ⟨skipped, head, blanks, rest, rfl, -⟩ := h
  intro b hb
  simp [hb]

/-- A token is copied only if it is not longer than the buffer. -/
theorem copyOpCode_eq (h : token.length ≤ dwpalOpcodeStringLength) :
    copyOpCode (some token) = [⟨0, token ++ [0]⟩] := by
  rw [copyOpCode, if_pos (by omega)]

theorem copyOpCode_empty {localOpCode : Option (List UInt8)}
    (h : ∀ token ∈ localOpCode, dwpalOpcodeStringLength < token.length) :
    copyOpCode localOpCode = [⟨0, [0]⟩] := by
  cases localOpCode with
  | none => rfl
  | some token =>
    have hlong := h token rfl
    rw [copyOpCode, if_neg (by omega)]

/-- A token that is left in the buffer is the word that is cut. -/
theorem localOpCode_of_left {localOpCode : Option (List UInt8)}
    (hleft : ∀ m, bytesAt (runAll (copyOpCode localOpCode) m) 0 (token ++ [0]).length =
      token ++ [0])
    (hne : token ≠ []) (hzero : 0 ∉ token) (hzeros : ∀ word ∈ localOpCode, 0 ∉ word) :
    localOpCode = some token ∧ copyOpCode localOpCode = [⟨0, token ++ [0]⟩] := by
  by_cases hempty : ∀ word ∈ localOpCode, dwpalOpcodeStringLength < word.length
  · have hread := hleft fun _ => 0
    rw [copyOpCode_empty hempty] at hread
    have hnil := eq_of_bytesAt hread
      ((@Writes.single _ ([] ++ [0]) 0).left fun _ => 0) hzero List.not_mem_nil
    exact absurd hnil hne
  · simp only [not_forall, Nat.not_lt] at hempty
    obtain ⟨word, hword, hle⟩ := hempty
    obtain rfl := hword
    have hread := hleft fun _ => 0
    rw [copyOpCode_eq hle] at hread ⊢
    obtain rfl := eq_of_bytesAt hread (Writes.single.left fun _ => 0) hzero (hzeros word rfl)
    exact ⟨rfl, rfl⟩

end OpCode

section Get

variable {dup : Bool} {bytes : List UInt8} {args : EventGetArgs} {msgLen : Nat} {res : DwpalRet}

/-- What the two stores to the buffer of the message leave. -/
theorem msg_writes : Writes [⟨0, bytes⟩, ⟨bytes.length, [0]⟩] 0 (bytes ++ [0]) :=
  Writes.cons ((Nat.zero_add bytes.length).symm ▸ Writes.single)

theorem msg_left (m : Memory UInt8) :
    bytesAt (runAll [⟨0, bytes⟩, ⟨bytes.length, [0]⟩] m) 0 bytes.length = bytes :=
  bytesAt_of_append (msg_writes.left m)

/-- A return without a message is right if it is no success. -/
theorem noEvent_right : EventGotRight args (noEvent res) ↔ res ≠ .success := by
  constructor
  · rintro h rfl
    obtain ⟨bytes, token, -, hlen, -⟩ := h.success rfl
    cases hlen
  · intro hres
    exact ⟨rfl, fun a ha => absurd ha not_touches_nil, fun a ha => absurd ha not_touches_nil,
      fun hsuccess => absurd hsuccess hres⟩

theorem cstr_subset_notMem {text token : List UInt8} (h : token ⊆ cstr text) : 0 ∉ token :=
  fun hzero => cstr_zero_notMem text (h hzero)

/-- A message that is read into a buffer of `msgLen` bytes. -/
theorem storeEvent_right (hlen : args.msgLen = some msgLen) :
    EventGotRight args (storeEvent dup bytes) ↔
      bytes.length < msgLen ∧ (5 < bytes.length → EventFits dup (cstr bytes)) := by
  have hinside : (∀ a, Touches [⟨0, bytes⟩, ⟨bytes.length, [0]⟩] a → ∃ len ∈ args.msgLen, a < len) ↔
      bytes.length < msgLen := by
    rw [hlen]
    constructor
    · intro h
      obtain ⟨len, hsome, hlt⟩ := h bytes.length ((msg_writes.touches _).mpr (by simp))
      rwa [Option.some.inj hsome]
    · intro hlt a ha
      have hrange := (msg_writes.touches a).mp ha
      rw [List.length_append, List.length_singleton] at hrange
      exact ⟨msgLen, rfl, by omega⟩
  rw [storeEvent]
  split_ifs with hshort hdup
  · constructor
    · exact fun h => ⟨hinside.mp h.msg_inside, fun hlong => absurd hlong (Nat.not_lt.mpr hshort)⟩
    · exact fun h => ⟨rfl, hinside.mpr h.1, fun a ha => absurd ha not_touches_nil, nofun⟩
  · constructor
    · exact fun h => absurd h.unlocked nofun
    · intro h
      have hcopied := (h.2 (Nat.not_le.mp hshort)).1
      rw [hdup] at hcopied
      cases hcopied
  · have hwhole : (cstr bytes).length ≤ bytes.length := (List.takeWhile_sublist _).length_le
    constructor
    · intro h
      refine ⟨hinside.mp h.msg_inside, fun _ => ⟨by simpa using hdup, ?_⟩⟩
      obtain ⟨bytes', token, -, hlength, hstored, htoken, hleft⟩ := h.success rfl
      have hsame : bytes' = bytes := by
        have hread := hstored fun _ => 0
        rw [← Option.some.inj hlength, msg_left] at hread
        exact hread.symm
      rw [hsame] at htoken
      obtain ⟨hword, hcopied⟩ := localOpCode_of_left hleft htoken.ne_nil
        (cstr_subset_notMem htoken.subset) fun word hword =>
          cstr_subset_notMem ((localOpCode_iff hwhole).mp hword).subset
      have hfits := h.opCode_inside token.length (by
        rw [hcopied]
        exact (Writes.single.touches _).mpr (by simp))
      exact ⟨token, htoken, hfits, fun _ => (localOpCode_iff hwhole).mp hword⟩
    · rintro ⟨hlt, hfits⟩
      obtain ⟨-, token, htoken, hlength, hbehind⟩ := hfits (Nat.not_le.mp hshort)
      have hword : localOpCode bytes.length (cstr bytes) = some token := by
        refine (localOpCode_iff hwhole).mpr ?_
        by_cases hhead : (cstr bytes).head? = some greater
        · exact hbehind hhead
        · exact htoken.wordBehind hhead
      rw [hword, copyOpCode_eq (Nat.le_of_lt hlength)]
      refine ⟨rfl, hinside.mpr hlt, ?_, fun _ => ⟨bytes, token, Nat.not_le.mp hshort, rfl, msg_left,
        htoken, Writes.single.left⟩⟩
      exact Writes.single.inside (by rw [List.length_append, List.length_singleton]; omega)

theorem eventRead_right {ctrl : WpaCtrl} (hlen : args.msgLen = some msgLen) :
    EventGotRight args (eventRead dup msgLen ctrl) ↔ (ctrl.pending = 1 → ∀ bytes,
      ctrl.received = some bytes →
        bytes.length < msgLen ∧ (5 < bytes.length → EventFits dup (cstr bytes))) := by
  rw [eventRead]
  split_ifs with hnone hother
  · exact iff_of_true (noEvent_right.mpr nofun) fun hone =>
      absurd (hnone.symm.trans hone) (by decide)
  · exact iff_of_true (noEvent_right.mpr nofun) fun hone => absurd hone hother
  · rw [forall_prop_of_true (not_ne_iff.mp hother)]
    cases ctrl.received with
    | none => exact iff_of_true (noEvent_right.mpr nofun) nofun
    | some bytes =>
      simp only [Option.some.injEq, forall_eq']
      rw [storeEvent_right hlen, List.length_take]
      -- a message that is cut fills the buffer
      by_cases hlt : bytes.length < msgLen
      · rw [List.take_of_length_le (Nat.le_of_lt hlt), Nat.min_eq_right (Nat.le_of_lt hlt)]
      · exact iff_of_false (fun h => absurd h.1 (by omega)) fun h => hlt h.1

/-- A call does what is asked of it just in these cases. -/
theorem eventGotRight_iff (dup : Bool) (args : EventGetArgs) :
    EventGotRight args (dwpalHostapEventGet dup args) ↔
      ∃ context ∈ args.context, ∃ msgLen ∈ args.msgLen, args.msg = true ∧ args.opCode = true ∧
        ∀ ctrl ∈ context.eventCtrl, ctrl.pending = 1 → ∀ bytes ∈ ctrl.received,
          bytes.length < msgLen ∧ (5 < bytes.length → EventFits dup (cstr bytes)) := by
  obtain ⟨context, msg, msgLen, opCode⟩ := args
  have hnull : ∀ {args : EventGetArgs}, ¬EventGotRight args (noEvent .success) := fun h =>
    noEvent_right.mp h rfl
  cases context with
  | none => exact iff_of_false hnull (by simp)
  | some context =>
    cases msgLen with
    | none => exact iff_of_false hnull (by simp)
    | some msgLen =>
      rw [dwpalHostapEventGet]
      simp only [Option.mem_def, Option.some.injEq, exists_eq_left']
      split_ifs with hbuffers
      · refine iff_of_false hnull ?_
        rintro ⟨rfl, rfl, -⟩
        simp at hbuffers
      · simp only [not_or, Bool.not_eq_false] at hbuffers
        rw [and_iff_right hbuffers.1, and_iff_right hbuffers.2]
        cases context.eventCtrl with
        | none => exact iff_of_true (noEvent_right.mpr nofun) nofun
        | some ctrl =>
          simp only [Option.some.injEq, forall_eq']
          exact eventRead_right rfl

/-- A message that fills its buffer, and a call without a context. -/
theorem eventGot_wrong :
    ¬EventGotRight ⟨some ⟨false, some ⟨1, some (ascii "<3>AP-ENABLED wlan0")⟩, none⟩, true,
      some 19, true⟩ (dwpalHostapEventGet true
        ⟨some ⟨false, some ⟨1, some (ascii "<3>AP-ENABLED wlan0")⟩, none⟩, true, some 19, true⟩) ∧
    ¬EventGotRight ⟨none, true, some 100, true⟩
      (dwpalHostapEventGet true ⟨none, true, some 100, true⟩) := by
  constructor
  · intro h
    obtain ⟨len, hlen, hlt⟩ := h.msg_inside 19 (by decide)
    cases hlen
    exact absurd hlt (by decide)
  · intro h
    obtain ⟨bytes, token, -, hlen, -⟩ := h.success rfl
    cases hlen

end Get

end Dwpal.Ext
