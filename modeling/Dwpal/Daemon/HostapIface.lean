import Dwpal.Lib.Frames
import Dwpal.Lib.Registry
import Dwpal.Daemon.IfaceManager
import Mathlib.Data.Set.Insert

/-! The functions of `daemon/hostap_iface.c` that the manager of the hostap interfaces calls: the
execution of a command, and the event registrations with what a registration request leaves
registered. The events of hostapd themselves are left out. -/

namespace Dwpal.Daemon

open Registry Ipc

/-- The interface and the memory of the command that `hostap_execute_command` reads from a message,
if it does not refuse it. -/
def hostapCommandOf (w : World) (cmdHdr : DwpaldHeader) (cmd : WvIpcMsg) :
    Option (List UInt8 × List UInt8) :=
  let len := cmdHdr.header2.toNat
  match waveIpcMsgGetData cmd with
  | none => none
  | some cmdData =>
    if waveIpcMsgGetSize cmd < len ∨ len ≥ 17 ∨ len = 0 then none
    else some (cstr (cmdData.take len), (cmdData ++ w.beyond).drop len)

/-- The response of `hostap_execute_command`, with the reply of hostapd and its terminator. -/
def hostapResponse (w : World) (dpalRet : DwpalRet) (reply : List UInt8) : WvIpcMsg :=
  let response := (waveIpcMsgReserveData (waveIpcMsgAlloc (w.pool 0)) (4096 * 4 + 1)).2
  let response :=
    if dpalRet = .success then
      { (waveIpcMsgShrinkData response (reply.length + 1)).2 with
        data := response.data.write 0 (reply ++ [0]) }
    else (waveIpcMsgShrinkData response 0).2
  (dwpaldHeaderPush response
    ⟨dwpaldCmdResp, dwpaldIfTypeHostap, UInt8.ofInt dpalRet.toInt, 0, 0, 0⟩).2

/-- `hostap_execute_command`. `dwpal_ext_hostap_cmd_send` gets the command as a C string and has
room for `4096 * 4` bytes of reply. A message that comes here has a header, since it was peeked. -/
def hostapExecuteCommand (w : World) (cmd : WvIpcMsg) (ipsta : Station) (seqNum : UInt8) :
    Nat × List Sent :=
  match dwpaldHeaderPop cmd with
  | .diverges | .failed _ => (1, [])
  | .popped cmdHdr cmd =>
    match hostapCommandOf w cmdHdr cmd with
    | none => (1, [])
    | some (vapName, cmdData) =>
      let (dpalRet, reply) := w.hostapCmdSend vapName (cstr cmdData)
      let response := hostapResponse w dpalRet (reply.take (4096 * 4))
      match waveIpcsSendResponseTo ipsta seqNum response 0 with
      | (.success, sent) => (0, sent)
      | (_, sent) => (1, sent)

/-- `hostap_iface_attach`; the state keeps its value when the attach fails. -/
def hostapIfaceAttach (w : World) (ifname : IfName) (state : UInt8) : Nat × UInt8 :=
  match w.hostapInterfaceAttach ifname.bytes with
  | .failure => (1, state)
  | .success => (0, interfaceDwpalStateConnected)
  | _ => (0, interfaceDwpalStateDisconnected)

/-- A `hostap_event`: an op_code and the stations registered to it. -/
abbrev HostapEvent := Entry (CString 64) Station

/-- `hostap_register_sta_to_event`. -/
def hostapRegisterStaToEvent (events : List HostapEvent) (ipsta : Station)
    (opCode : List UInt8) : List HostapEvent :=
  register (fun tmp => strncmpEq opCode tmp.bytes 64) (CString.copyFrom opCode 63 (by decide))
    ipsta events

/-- `g_intf_events`: the names of the events that the client needs. -/
def gIntfEvents : List (List UInt8) :=
  [ascii "INTERFACE_CONNECTED_OK", ascii "INTERFACE_RECONNECTED_OK", ascii "INTERFACE_DISCONNECTED"]

/-- The loop over `g_intf_events` for one op_code: the flag of the first name that it starts with
is set. -/
def setIntfFlag (opCode : List UInt8) : List (List UInt8 × Bool) → List (List UInt8 × Bool)
  | [] => []
  | (name, flag) :: intfFlags =>
    if strncmpEq opCode name name.length then (name, true) :: intfFlags
    else (name, flag) :: setIntfFlag opCode intfFlags

/-- The walk of `hostap_register_sta_to_events`: `regStr` is the memory from `&reg_str[i]` on and
`left` is `len - i`. It returns 1 for an op_code that is too long. Every round moves on by at least
one byte, so `len` rounds are enough. -/
def hostapRegisterWalk (ipsta : Station) : Nat → Nat → List UInt8 → List HostapEvent →
    List (List UInt8 × Bool) → Nat × List HostapEvent × List (List UInt8 × Bool)
  | 0, _, _, events, intfFlags => (0, events, intfFlags)
  | fuel + 1, left, regStr, events, intfFlags =>
    if left = 0 ∨ regStr.headD 0 = 0 then (0, events, intfFlags)
    else
      let opCodeLen := (regStr.headD 0).toNat
      if opCodeLen ≥ 64 then (1, events, intfFlags)
      else
        let opCode := cstr ((regStr.drop 1).take opCodeLen)
        hostapRegisterWalk ipsta fuel (left - (1 + opCodeLen)) (regStr.drop (1 + opCodeLen))
          (hostapRegisterStaToEvent events ipsta opCode) (setIntfFlag opCode intfFlags)

/-- The forced registration of the interface events whose flag is not set. -/
def forceIntfEvents (ipsta : Station) (events : List HostapEvent)
    (intfFlags : List (List UInt8 × Bool)) : List HostapEvent :=
  intfFlags.foldl (fun events (name, flag) =>
    if flag then events else hostapRegisterStaToEvent events ipsta name) events

/-- `hostap_register_sta_to_events`; `regStr` is the memory at the pointer. -/
def hostapRegisterStaToEvents (events : List HostapEvent) (ipsta : Station) (regStr : List UInt8)
    (len : Nat) : Nat × List HostapEvent :=
  match hostapRegisterWalk ipsta len len regStr events (gIntfEvents.map fun name =>
    (name, false)) with
  | (0, events, intfFlags) => (0, forceIntfEvents ipsta events intfFlags)
  | (ret, events, _) => (ret, events)

/-- `hostap_unregister_sta_from_events`. -/
def hostapUnregisterStaFromEvents (events : List HostapEvent) (ipsta : Station) :
    Nat × List HostapEvent :=
  (0, withdrawAll ipsta events)

/-- `apis`. -/
def hostapManApis : ManagerApis HostapEvent Unit where
  executeCommand := hostapExecuteCommand
  ifaceAttach w _ ifname state :=
    let (ret, state) := hostapIfaceAttach w ifname state
    (ret, state, ())
  ifaceDetach _ := ()
  registerStaToEvents := hostapRegisterStaToEvents
  unregisterStaFromEvents := hostapUnregisterStaFromEvents

/-! What is registered, as a set of op_codes. -/

/-- The op_codes that station `ipsta` is registered to. -/
def opCodesOf (events : List HostapEvent) (ipsta : Station) : Set (List UInt8) :=
  {op | ∃ key : CString 64, key.bytes = op ∧ Member events key ipsta}

theorem zero_notMem_of_mem_opCodesOf {events : List HostapEvent} {ipsta : Station}
    {op : List UInt8} (h : op ∈ opCodesOf events ipsta) : 0 ∉ op := by
  obtain ⟨key, rfl, -⟩ := h
  exact key.zero_notMem

theorem strncmpEq_key {op : List UInt8} (h0 : 0 ∉ op) (hlen : op.length < 64) (key : CString 64) :
    strncmpEq op key.bytes 64 = true ↔ key = CString.copyFrom op 63 (by decide) := by
  have hcopy : (CString.copyFrom op 63 (by decide : 0 < 64)).bytes = op := by
    rw [CString.copyFrom_bytes_eq (by decide) (by decide), cstr_of_notMem h0,
      List.take_of_length_le (by omega)]
  have := CString.strncmpEq_bytes (CString.copyFrom op 63 (by decide : 0 < 64)) key
  rw [hcopy] at this
  rw [this, eq_comm]

/-- Registering one op_code adds it to the set. -/
theorem opCodesOf_register {events : List HostapEvent} {ipsta : Station} {op : List UInt8}
    (h0 : 0 ∉ op) (hlen : op.length < 64) :
    opCodesOf (hostapRegisterStaToEvent events ipsta op) ipsta =
      insert op (opCodesOf events ipsta) := by
  have hcopy : (CString.copyFrom op 63 (by decide : 0 < 64)).bytes = op := by
    rw [CString.copyFrom_bytes_eq (by decide) (by decide), cstr_of_notMem h0,
      List.take_of_length_le (by omega)]
  ext op'
  constructor
  · rintro ⟨key, rfl, hmem⟩
    rcases (member_register (strncmpEq_key h0 hlen)).mp hmem with h | ⟨rfl, -⟩
    · exact Or.inr ⟨key, rfl, h⟩
    · exact Or.inl hcopy
  · rintro (rfl | ⟨key, rfl, hmem⟩)
    · exact ⟨_, hcopy, (member_register (strncmpEq_key h0 hlen)).mpr (Or.inr ⟨rfl, rfl⟩)⟩
    · exact ⟨key, rfl, (member_register (strncmpEq_key h0 hlen)).mpr (Or.inl hmem)⟩

theorem opCodesOf_unregister (events : List HostapEvent) (ipsta : Station) :
    opCodesOf (hostapUnregisterStaFromEvents events ipsta).2 ipsta = ∅ := by
  ext op
  simp only [opCodesOf, hostapUnregisterStaFromEvents, member_withdrawAll, Set.mem_ofPred_eq,
    Set.mem_empty_iff_false, iff_false]
  rintro ⟨key, -, -, hne⟩
  exact hne rfl

/-- The walk goes over the frames of the request until a length byte is too large. -/
theorem hostapRegisterWalk_ret (ipsta : Station) : ∀ (fuel left : Nat) (regStr : List UInt8)
    (events : List HostapEvent) (intfFlags : List (List UInt8 × Bool)),
    (hostapRegisterWalk ipsta fuel left regStr events intfFlags).1 = 0 ↔
      ∀ len ∈ (Frames.scan fuel left regStr).map Prod.fst, len.toNat < 64 := by
  intro fuel
  induction fuel with
  | zero => simp [hostapRegisterWalk, Frames.scan]
  | succ fuel ih =>
    intro left regStr events intfFlags
    rw [hostapRegisterWalk, Frames.scan]
    by_cases hend : left = 0 ∨ regStr.headD 0 = 0
    · rw [if_pos hend, if_pos hend]
      simp
    · rw [if_neg hend, if_neg hend]
      by_cases hlen : (regStr.headD 0).toNat ≥ 64
      · rw [if_pos hlen]
        simp only [List.map_cons, List.forall_mem_cons]
        exact iff_of_false (by decide) fun h => absurd h.1 (Nat.not_lt.mpr hlen)
      · rw [if_neg hlen, ih, List.map_cons, List.forall_mem_cons]
        exact (and_iff_right (Nat.not_le.mp hlen)).symm

/-- A walk that meets no length byte above 63 registers every op_code it meets, and sets the flags
for them. -/
theorem hostapRegisterWalk_eq (ipsta : Station) : ∀ (fuel left : Nat) (regStr : List UInt8)
    (events : List HostapEvent) (intfFlags : List (List UInt8 × Bool)),
    (∀ len ∈ (Frames.scan fuel left regStr).map Prod.fst, len.toNat < 64) →
      (hostapRegisterWalk ipsta fuel left regStr events intfFlags).2 =
        (((Frames.scan fuel left regStr).map fun x => cstr x.2).foldl
            (fun events op => hostapRegisterStaToEvent events ipsta op) events,
          ((Frames.scan fuel left regStr).map fun x => cstr x.2).foldl
            (fun flags op => setIntfFlag op flags) intfFlags) := by
  intro fuel
  induction fuel with
  | zero => simp [hostapRegisterWalk, Frames.scan]
  | succ fuel ih =>
    intro left regStr events intfFlags hlens
    rw [hostapRegisterWalk]
    rw [Frames.scan] at hlens ⊢
    by_cases hend : left = 0 ∨ regStr.headD 0 = 0
    · rw [if_pos hend, if_pos hend]
      rfl
    · rw [if_neg hend] at hlens ⊢
      rw [List.map_cons, List.forall_mem_cons] at hlens
      rw [if_neg hend, if_neg (Nat.not_le.mpr hlens.1), ih _ _ _ _ hlens.2]
      rfl

/-- Registering a list of op_codes. -/
theorem opCodesOf_foldl {ipsta : Station} : ∀ {ops : List (List UInt8)} {events : List HostapEvent},
    (∀ op ∈ ops, 0 ∉ op ∧ op.length < 64) →
      opCodesOf (ops.foldl (fun events op => hostapRegisterStaToEvent events ipsta op)
        events) ipsta = opCodesOf events ipsta ∪ {op | op ∈ ops} := by
  intro ops
  induction ops with
  | nil =>
    intro events _
    simp
  | cons op ops ih =>
    intro events hops
    have hop := hops op List.mem_cons_self
    rw [List.foldl_cons, ih fun o ho => hops o (List.mem_cons_of_mem op ho),
      opCodesOf_register hop.1 hop.2]
    ext o
    simp only [Set.mem_union, Set.mem_insert_iff, Set.mem_ofPred_eq, List.mem_cons]
    tauto

/-- An op_code starts with the name of an interface event. -/
def StartsWith (op name : List UInt8) : Prop := name <+: op

theorem strncmpEq_name {op name : List UInt8} (hop : 0 ∉ op) (hname : 0 ∉ name) :
    strncmpEq op name name.length = true ↔ StartsWith op name := by
  rw [strncmpEq_iff, cstr_of_notMem hop, cstr_of_notMem hname, List.take_length, StartsWith,
    List.prefix_iff_eq_take, eq_comm]

theorem setIntfFlag_map {op : List UInt8} {f : List UInt8 → Bool} {names : List (List UInt8)}
    (hone : names.Pairwise fun a b =>
      ¬ (strncmpEq op a a.length = true ∧ strncmpEq op b b.length = true)) :
    setIntfFlag op (names.map fun name => (name, f name)) =
      names.map fun name => (name, f name || strncmpEq op name name.length) := by
  induction names with
  | nil => rfl
  | cons name names ih =>
    rw [List.pairwise_cons] at hone
    rw [List.map_cons, List.map_cons, setIntfFlag]
    by_cases h : strncmpEq op name name.length = true
    · have hrest : ∀ n ∈ names, (n, f n || strncmpEq op n n.length) = (n, f n) := by
        intro n hn
        have : strncmpEq op n n.length = false := by
          simpa [h] using hone.1 n hn
        rw [this, Bool.or_false]
      rw [if_pos h, h, Bool.or_true, List.map_congr_left hrest]
    · rw [if_neg h, Bool.eq_false_iff.mpr h, Bool.or_false, ih hone.2]

theorem zero_notMem_gIntfEvents : ∀ name ∈ gIntfEvents, 0 ∉ name := by decide

theorem length_gIntfEvents : ∀ name ∈ gIntfEvents, name.length < 64 := by decide

/-- No op_code starts with two of the names. -/
theorem gIntfEvents_pairwise {op : List UInt8} (hop : 0 ∉ op) :
    gIntfEvents.Pairwise fun a b =>
      ¬ (strncmpEq op a a.length = true ∧ strncmpEq op b b.length = true) := by
  have hnames : gIntfEvents.Pairwise fun a b => ¬ a <+: b ∧ ¬ b <+: a := by decide
  refine hnames.imp_of_mem fun {a b} ha hb hab hboth => ?_
  have hpa := (strncmpEq_name hop (zero_notMem_gIntfEvents a ha)).mp hboth.1
  have hpb := (strncmpEq_name hop (zero_notMem_gIntfEvents b hb)).mp hboth.2
  exact (List.prefix_or_prefix_of_prefix hpa hpb).elim hab.1 hab.2

/-- The flags after the walk over the op_codes `ops`. -/
theorem setIntfFlag_foldl {ops : List (List UInt8)} (hops : ∀ op ∈ ops, 0 ∉ op)
    (f : List UInt8 → Bool) :
    ops.foldl (fun flags op => setIntfFlag op flags) (gIntfEvents.map fun name => (name, f name)) =
      gIntfEvents.map fun name =>
        (name, f name || ops.any fun op => strncmpEq op name name.length) := by
  induction ops generalizing f with
  | nil => simp
  | cons op ops ih =>
    have hop := hops op List.mem_cons_self
    rw [List.foldl_cons, setIntfFlag_map (gIntfEvents_pairwise hop),
      ih fun o ho => hops o (List.mem_cons_of_mem op ho)]
    simp only [List.any_cons, Bool.or_assoc]

/-- Forcing the events whose flag is not set is registering their names. -/
theorem forceIntfEvents_eq (ipsta : Station) (names : List (List UInt8)) (f : List UInt8 → Bool)
    (events : List HostapEvent) :
    forceIntfEvents ipsta events (names.map fun name => (name, f name)) =
      (names.filter fun name => !f name).foldl
        (fun events op => hostapRegisterStaToEvent events ipsta op) events := by
  induction names generalizing events with
  | nil => rfl
  | cons name names ih =>
    rw [forceIntfEvents, List.map_cons, List.foldl_cons, ← forceIntfEvents]
    cases hf : f name <;> simp [hf, ih]

/-- The op_codes of the frames that a registration request consists of. -/
def requested (regStr : List UInt8) (len : Nat) : List (List UInt8) :=
  (Frames.scan len len regStr).map fun x => cstr x.2

/-- The interface events that a request for `ops` does not suppress. -/
def forced (ops : List (List UInt8)) : Set (List UInt8) :=
  {name | name ∈ gIntfEvents ∧ ∀ op ∈ ops, ¬ StartsWith op name}

theorem requested_bound {regStr : List UInt8} {len : Nat}
    (hlens : ∀ l ∈ (Frames.scan len len regStr).map Prod.fst, l.toNat < 64) :
    ∀ op ∈ requested regStr len, 0 ∉ op ∧ op.length < 64 := by
  intro op hop
  obtain ⟨x, hx, rfl⟩ := List.mem_map.mp hop
  have hlen := hlens x.1 (List.mem_map_of_mem hx)
  have hframe := Frames.length_scan hx
  have hcstr : (cstr x.2).length ≤ x.2.length := (List.takeWhile_prefix _).length_le
  exact ⟨cstr_zero_notMem x.2, by omega⟩

/-- What `hostap_register_sta_to_events` leaves registered, when it succeeds. -/
theorem hostapRegisterStaToEvents_spec {regStr : List UInt8} {len : Nat}
    (hlens : ∀ l ∈ (Frames.scan len len regStr).map Prod.fst, l.toNat < 64)
    (events : List HostapEvent) (ipsta : Station) :
    (hostapRegisterStaToEvents events ipsta regStr len).1 = 0 ∧
      opCodesOf (hostapRegisterStaToEvents events ipsta regStr len).2 ipsta =
        opCodesOf events ipsta ∪ {op | op ∈ requested regStr len} ∪
          forced (requested regStr len) := by
  have hops := requested_bound hlens
  have hret := (hostapRegisterWalk_ret ipsta len len regStr events
    (gIntfEvents.map fun name => (name, false))).mpr hlens
  have hwalk := hostapRegisterWalk_eq ipsta len len regStr events
    (gIntfEvents.map fun name => (name, false)) hlens
  rw [show ((Frames.scan len len regStr).map fun x => cstr x.2) = requested regStr len from rfl,
    setIntfFlag_foldl fun op hop => (hops op hop).1] at hwalk
  simp only [Bool.false_or] at hwalk
  have heq : hostapRegisterStaToEvents events ipsta regStr len =
      (0, forceIntfEvents ipsta ((requested regStr len).foldl
        (fun events op => hostapRegisterStaToEvent events ipsta op) events)
        (gIntfEvents.map fun name =>
          (name, (requested regStr len).any fun op => strncmpEq op name name.length))) := by
    rw [hostapRegisterStaToEvents]
    generalize hostapRegisterWalk ipsta len len regStr events
      (gIntfEvents.map fun name => (name, false)) = walk at hret hwalk
    obtain ⟨ret, rest⟩ := walk
    cases hret
    cases hwalk
    rfl
  rw [heq]
  refine ⟨rfl, ?_⟩
  rw [forceIntfEvents_eq, opCodesOf_foldl, opCodesOf_foldl hops]
  · congr 1
    ext name
    simp only [forced, Set.mem_ofPred_eq, List.mem_filter, Bool.not_eq_true', List.any_eq_false]
    refine and_congr_right fun hname => forall₂_congr fun op hop => ?_
    rw [strncmpEq_name (hops op hop).1 (zero_notMem_gIntfEvents name hname)]
  · intro name hname
    have := List.mem_of_mem_filter hname
    exact ⟨zero_notMem_gIntfEvents name this, length_gIntfEvents name this⟩

/-- A length byte above 63 in the request makes it fail. -/
theorem hostapRegisterStaToEvents_fails {regStr : List UInt8} {len : Nat}
    (hlens : ¬ ∀ l ∈ (Frames.scan len len regStr).map Prod.fst, l.toNat < 64)
    (events : List HostapEvent) (ipsta : Station) :
    (hostapRegisterStaToEvents events ipsta regStr len).1 ≠ 0 := by
  rw [← hostapRegisterWalk_ret ipsta len len regStr events
    (gIntfEvents.map fun name => (name, false))] at hlens
  unfold hostapRegisterStaToEvents
  split
  · next h => exact absurd (by rw [h]) hlens
  · next h => exact fun h0 => hlens (by rw [h]; exact h0)

end Dwpal.Daemon
