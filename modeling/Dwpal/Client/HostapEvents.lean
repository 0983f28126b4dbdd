import Dwpal.Client.EventMerge

/-! The event registrations of hostapd in `daemon/dwpald_client.c`. -/

namespace Dwpal.Client

/-- `dwpald_hostap_event`, as the application passes it: `op_code` points to `op_code_len` bytes. -/
structure DwpaldHostapEvent where
  opCode : Option (List UInt8)
  opCodeLen : UInt8
  hapdClb : Option Clb
  length_eq : ∀ bytes, opCode = some bytes → bytes.length = opCodeLen.toNat

/-- The op_code of an entry: a C string in memory of `op_code_len + 1` bytes. -/
structure OpCode where
  opCode : List UInt8
  opCodeLen : UInt8
  zero_notMem : 0 ∉ opCode
  length_le : opCode.length ≤ opCodeLen.toNat

/-- `dwpald_hostap_event_with_id`. -/
abbrev DwpaldHostapEventWithId := EventWithId OpCode

namespace DwpaldHostapEventWithId

def opCode (event : DwpaldHostapEventWithId) : List UInt8 := event.key.opCode

def opCodeLen (event : DwpaldHostapEventWithId) : UInt8 := event.key.opCodeLen

theorem length_le (event : DwpaldHostapEventWithId) :
    event.opCode.length ≤ event.opCodeLen.toNat := event.key.length_le

end DwpaldHostapEventWithId

/-- The op_code that `dwpald_copy_hostap_events` copies. -/
def copyOpCode (opCode : List UInt8) (opCodeLen : UInt8) : OpCode where
  opCode := strncpyS (opCodeLen.toNat + 1) opCode opCodeLen.toNat
  opCodeLen := opCodeLen
  zero_notMem := zero_notMem_strncpyS _ _ _
  length_le := by
    rw [strncpyS_eq (Nat.lt_succ_self _)]
    exact List.length_take_le ..

/-- The events of hostapd. An entry is found if its op_code starts with the one that is to be
added. -/
def hostapEventKind : EventKind DwpaldHostapEvent OpCode where
  found key event := strncmpEq key.opCode (event.opCode.getD []) event.opCodeLen.toNat
  unreadable event := event.opCode.isNone
  clb event := event.hapdClb
  pushesNull := true
  copyKey event :=
    match event.opCode, event.hapdClb with
    | some opCode, some _ =>
      if event.opCodeLen = 0 then none else some (copyOpCode opCode event.opCodeLen)
    | _, _ => none

/-- `dwpald_free_hostap_events_with_id`. -/
def dwpaldFreeHostapEventsWithId (hapEvents : List DwpaldHostapEventWithId) (id : UInt32) :
    List DwpaldHostapEventWithId :=
  freeEventsWithId hapEvents id

/-- `dwpald_copy_hostap_events`. -/
def dwpaldCopyHostapEvents (dst : List DwpaldHostapEventWithId) (id : UInt32)
    (hostapEvents : List DwpaldHostapEvent) : Nat × List DwpaldHostapEventWithId :=
  hostapEventKind.copyEvents dst id hostapEvents

/-- `dwpald_add_hostap_events`. -/
def dwpaldAddHostapEvents (events : List DwpaldHostapEventWithId)
    (hostapEvents : List DwpaldHostapEvent) (id : UInt32) :
    Option (Int × List DwpaldHostapEventWithId) :=
  hostapEventKind.addEvents events hostapEvents id

/-- The name of an event of hostapd is its op_code, up to the first zero byte. -/
def hostapNaming : hostapEventKind.Naming (List UInt8) where
  name := OpCode.opCode
  nameOf event := cstr (event.opCode.getD [])
  found_of_eq {key event} h := by
    refine strncmpEq_iff.mpr ?_
    rw [cstr_of_notMem key.zero_notMem, h]
  name_copyKey {event key} h := by
    obtain ⟨opCode, opCodeLen, hapdClb, hlen⟩ := event
    cases opCode with
    | none => cases h
    | some bytes =>
      cases hapdClb with
      | none => cases h
      | some clb =>
        simp only [hostapEventKind] at h
        split at h
        · cases h
        · cases h
          simp only [copyOpCode, Option.getD_some]
          rw [strncpyS_eq (Nat.lt_succ_self _), ← hlen bytes rfl]
          exact List.take_of_length_le (List.takeWhile_prefix _).length_le
  clb_copyKey {event key} h := by
    obtain ⟨opCode, opCodeLen, hapdClb, hlen⟩ := event
    cases hapdClb <;> cases opCode <;> simp [hostapEventKind] at h ⊢
  readable_copyKey {event key} h := by
    obtain ⟨opCode, opCodeLen, hapdClb, hlen⟩ := event
    cases opCode with
    | none => cases h
    | some bytes => rfl

/-- A registration that `dwpald_copy_hostap_events` accepts: the op_code and the callback. -/
structure Request where
  opCode : List UInt8
  clb : Clb
  length_pos : 0 < opCode.length
  length_lt : opCode.length < 256
deriving DecidableEq

theorem apEnabled_pos : 0 < (ascii "AP-ENABLED").length := by decide

theorem apEnabled_lt : (ascii "AP-ENABLED").length < 256 := by decide

theorem apDisabled_pos : 0 < (ascii "AP-DISABLED").length := by decide

theorem apDisabled_lt : (ascii "AP-DISABLED").length < 256 := by decide

/-- The registration as the application passes it. -/
def Request.event (r : Request) : DwpaldHostapEvent where
  opCode := some r.opCode
  opCodeLen := UInt8.ofNat r.opCode.length
  hapdClb := some r.clb
  length_eq bytes h := by
    cases h
    rw [UInt8.toNat_ofNat', Nat.mod_eq_of_lt r.length_lt]

/-- The entry that a copy of the registration has. -/
def Request.entry (r : Request) (id : UInt32) : DwpaldHostapEventWithId :=
  ⟨copyOpCode r.opCode (UInt8.ofNat r.opCode.length), [⟨some r.clb, id⟩]⟩

theorem Request.toNat_len (r : Request) :
    (UInt8.ofNat r.opCode.length).toNat = r.opCode.length := by
  rw [UInt8.toNat_ofNat', Nat.mod_eq_of_lt r.length_lt]

@[simp] theorem Request.entry_opCode (r : Request) (id : UInt32) :
    (r.entry id).opCode = cstr r.opCode := by
  have hlen := r.toNat_len
  show strncpyS ((UInt8.ofNat r.opCode.length).toNat + 1) r.opCode _ = _
  rw [strncpyS_eq (Nat.lt_succ_self _), hlen]
  exact List.take_of_length_le (List.takeWhile_prefix _).length_le

@[simp] theorem Request.entry_opCodeLen (r : Request) (id : UInt32) :
    (r.entry id).opCodeLen = UInt8.ofNat r.opCode.length := rfl

theorem Request.opCodeLen_ne_zero (r : Request) : r.event.opCodeLen ≠ 0 := fun h => by
  have hlen := r.toNat_len
  rw [show UInt8.ofNat r.opCode.length = 0 from h] at hlen
  exact absurd hlen (Nat.ne_of_lt r.length_pos)

theorem Request.copyKey_event (r : Request) :
    hostapEventKind.copyKey r.event = some (copyOpCode r.opCode (UInt8.ofNat r.opCode.length)) :=
  if_neg r.opCodeLen_ne_zero

/-- `dwpald_copy_hostap_events` pushes every copy to the front. -/
theorem copyHostapEvents_requests (dst : List DwpaldHostapEventWithId) (id : UInt32)
    (rs : List Request) :
    dwpaldCopyHostapEvents dst id (rs.map Request.event) =
      (0, (rs.map fun r => r.entry id).reverse ++ dst) := by
  induction rs generalizing dst with
  | nil => rfl
  | cons r rs ih =>
    have hcopy : dwpaldCopyHostapEvents dst id ((r :: rs).map Request.event) =
        dwpaldCopyHostapEvents (r.entry id :: dst) id (rs.map Request.event) := by
      simp only [dwpaldCopyHostapEvents, List.map_cons, EventKind.copyEvents, r.copyKey_event]
      rfl
    rw [hcopy, ih]
    simp

/-- What `dwpald_copy_hostap_events` accepts is a list of requests. -/
theorem requests_of_copyHostapEvents {dst dst' : List DwpaldHostapEventWithId} {id : UInt32} :
    ∀ {events : List DwpaldHostapEvent}, dwpaldCopyHostapEvents dst id events = (0, dst') →
      ∃ rs : List Request, events = rs.map Request.event := by
  intro events
  induction events generalizing dst with
  | nil => exact fun _ => ⟨[], rfl⟩
  | cons event events ih =>
    intro h
    obtain ⟨opCode, opCodeLen, hapdClb, hlen⟩ := event
    cases opCode with
    | none => cases h
    | some opCode =>
      cases hapdClb with
      | none => cases h
      | some clb =>
        by_cases h0 : opCodeLen = 0
        · subst h0
          cases h
        · simp only [dwpaldCopyHostapEvents, EventKind.copyEvents, hostapEventKind, h0,
            if_false] at h ih
          obtain ⟨rs, rfl⟩ := ih h
          have hlen' := hlen opCode rfl
          have hpos : 0 < opCodeLen.toNat := Nat.pos_of_ne_zero fun e => h0 (UInt8.toNat_inj.mp e)
          have hlt := opCodeLen.toNat_lt
          refine ⟨⟨opCode, clb, by omega, by omega⟩ :: rs, ?_⟩
          simp [Request.event, hlen']

end Dwpal.Client
