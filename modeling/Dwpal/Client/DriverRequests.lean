import Dwpal.Client.DriverEvents
import Dwpal.Client.RoundTrip

/-! The requests for the driver and the kernel from end to end: what `dwpald_send_drv_nl_attach` and
`dwpald_send_drv_nl_update_event` send, what the manager of the kernel interfaces makes of it, and
what the client keeps of the answer. -/

namespace Dwpal.Client

open Ipc Daemon Registry

/-- `DWPALD_NL_DRV_IFNAME`. -/
def dwpaldNlDrvIfname : List UInt8 := ascii "nl_drv"

/-- The nl_ids as they stand in a request. -/
def nlIdArray (nlIds : List UInt32) : List UInt8 := nlIds.flatMap nlIdBytes

def drvReqLen (drvEvents : List DwpaldDriverNlEventWithId) : Nat :=
  ifnamsiz + 1 + 4 * drvEvents.length

/-- The request of `dwpald_send_drv_nl_attach` and of `dwpald_send_drv_nl_update_event`. -/
def drvRequest (drvEvents : List DwpaldDriverNlEventWithId) : Buffer (drvReqLen drvEvents) :=
  ((Buffer.fill (drvReqLen drvEvents) 0).write 0 (dwpaldNlDrvIfname ++ [0])).write (ifnamsiz + 1)
    (nlIdArray (drvEvents.map EventWithId.key))

/-- The end of both functions: when the request has succeeded, `header[2]` of the response becomes
the `nl80211_id` of the connection. -/
def keepId (nl80211Id : Int) :
    DwpaldRet × Option DwpaldHeader × Dwpald → DwpaldRet × Int × Dwpald
  | (ret, some respHdr, d) => (ret, respHdr.header2.toNat, d)
  | (ret, none, d) => (ret, nl80211Id, d)

/-- `dwpald_send_drv_nl_attach`: the status, the `nl80211_id` of the connection, and the daemon. -/
def dwpaldSendDrvNlAttach (p : Path) (d : Dwpald) (nl80211Id : Int)
    (drvEvents : List DwpaldDriverNlEventWithId) : DwpaldRet × Int × Dwpald :=
  keepId nl80211Id (dwpaldSendAttachCmd p d (drvRequest drvEvents).bytes dwpaldIfTypeKernel)

/-- `dwpald_send_drv_nl_update_event`. -/
def dwpaldSendDrvNlUpdateEvent (p : Path) (d : Dwpald) (nl80211Id : Int)
    (drvEvents : List DwpaldDriverNlEventWithId) : DwpaldRet × Int × Dwpald :=
  keepId nl80211Id (dwpaldSendUpdateEventCmd p d (drvRequest drvEvents).bytes dwpaldIfTypeKernel)

/-! The manager of the kernel interfaces. -/

/-- The nl_ids that station `ipsta` is registered to on the interface `ifname`. -/
def registeredNlIds (m : IfaceManager DrvEvent Bool) (ifname : IfName) (ipsta : Station) :
    Set UInt32 :=
  {nlId | ∃ iface, m.find ifname = some iface ∧ Member iface.events nlId ipsta}

/-- The kernel can be attached, and its family id is known. -/
def NlAttachable (w : World) (isAttached : Bool) : Prop :=
  (isAttached = true ∨ w.driverNlAttach ≠ .failure) ∧ w.nl80211IdGet.1 = .success

section Manager

variable {w : World} {m : IfaceManager DrvEvent Bool} {cmd : WvIpcMsg} {seqNum : UInt8}
  {ipsta : Station} {ifname : IfName}

theorem nlIfaceAttach_ok {isAttached : Bool} (h : NlAttachable w isAttached) (state : UInt8) :
    nlIfaceAttach w isAttached state = (0, UInt8.ofInt w.nl80211IdGet.2, true) := by
  obtain ⟨hattach, hid⟩ := h
  have hgo : ¬ (!isAttached ∧ w.driverNlAttach = .failure) := by
    rintro ⟨hnot, hfailure⟩
    rcases hattach with rfl | hok
    · cases hnot
    · exact hok hfailure
  rw [nlIfaceAttach, if_neg hgo]
  generalize w.nl80211IdGet = answer at hid ⊢
  obtain ⟨ret, nl80211Id⟩ := answer
  cases hid
  rfl

theorem nlIfaceAttach_fails {isAttached : Bool} (h : ¬ NlAttachable w isAttached) (state : UInt8) :
    (nlIfaceAttach w isAttached state).1 ≠ 0 := by
  rw [nlIfaceAttach]
  by_cases hgo : !isAttached ∧ w.driverNlAttach = .failure
  · rw [if_pos hgo]
    exact Nat.one_ne_zero
  · have hattach : isAttached = true ∨ w.driverNlAttach ≠ .failure := by
      cases isAttached with
      | true => exact .inl rfl
      | false => exact .inr fun hfailure => hgo ⟨rfl, hfailure⟩
    rw [if_neg hgo]
    rw [NlAttachable, and_iff_right hattach] at h
    generalize w.nl80211IdGet = answer at h ⊢
    obtain ⟨ret, nl80211Id⟩ := answer
    cases ret with
    | success => exact absurd rfl h
    | _ => exact Nat.one_ne_zero

theorem length_nlIdArray (nlIds : List UInt32) : (nlIdArray nlIds).length = 4 * nlIds.length := by
  induction nlIds with
  | nil => rfl
  | cons nlId nlIds ih =>
    rw [nlIdArray, List.flatMap_cons, List.length_append, ← nlIdArray, ih, List.length_cons]
    have hbytes : (nlIdBytes nlId).length = 4 := rfl
    omega

/-- The daemon reads the nl_ids that the client has written. -/
theorem nlIds_nlIdArray (ids : List UInt32) (tail : List UInt8) :
    nlIds (nlIdArray ids ++ tail) ids.length = ids := by
  induction ids with
  | nil => rfl
  | cons nlId ids ih =>
    have hsplit : nlIdArray (nlId :: ids) ++ tail = nlIdBytes nlId ++ (nlIdArray ids ++ tail) := by
      rw [nlIdArray, List.flatMap_cons, List.append_assoc, ← nlIdArray]
    have hdrop : (nlIdBytes nlId ++ (nlIdArray ids ++ tail)).drop 4 = nlIdArray ids ++ tail :=
      List.drop_left' rfl
    rw [hsplit, List.length_cons, nlIds, hdrop, ih, le32_nlIdBytes_append, UInt32.ofNat_toNat]

theorem member_nlRegister {events : List DrvEvent} {ids : List UInt32} {nlId : UInt32}
    {other : Station} :
    Member (ids.foldl (fun events nlId => nlManagerRegisterStaToDrvEvent events ipsta nlId) events)
        nlId other ↔
      Member events nlId other ∨ nlId ∈ ids ∧ other = ipsta := by
  induction ids generalizing events with
  | nil => simp
  | cons id ids ih =>
    have hhit : ∀ k : UInt32, (k == id) = true ↔ k = id := fun k => beq_iff_eq
    rw [List.foldl_cons, ih, nlManagerRegisterStaToDrvEvent, member_register hhit, List.mem_cons]
    tauto

/-- The registration of the nl_ids in a request. -/
theorem nlRegisterStaToEvents_eq (events : List DrvEvent) (ipsta : Station) (ids : List UInt32)
    (tail : List UInt8) (hpos : ids ≠ []) :
    nlRegisterStaToEvents events ipsta (nlIdArray ids ++ tail) (4 * ids.length) =
      (0, ids.foldl (fun events nlId => nlManagerRegisterStaToDrvEvent events ipsta nlId)
        events) := by
  have hlen := List.length_pos_iff.mpr hpos
  rw [nlRegisterStaToEvents, if_neg (by omega), if_neg (by omega),
    Nat.mul_div_cancel_left _ (by decide : 0 < 4), nlIds_nlIdArray]

/-- The registration part of both works, with the nl_ids of a request. -/
theorem registerPart_eq (events : List DrvEvent) (ipsta : Station) (ids : List UInt32)
    (tail : List UInt8) :
    (if (nlIdArray ids).length ≠ 0 then
        nlRegisterStaToEvents events ipsta (nlIdArray ids ++ tail) (nlIdArray ids).length
      else (0, events)) =
      (0, ids.foldl (fun events nlId => nlManagerRegisterStaToDrvEvent events ipsta nlId)
        events) := by
  rw [length_nlIdArray]
  by_cases hnil : ids = []
  · subst hnil
    rfl
  · have hlen := List.length_pos_iff.mpr hnil
    rw [if_pos (by omega), nlRegisterStaToEvents_eq events ipsta ids tail hnil]

/-- The station is attached to `ifname`, and registered to `ids` there. -/
structure AttachedTo (m : IfaceManager DrvEvent Bool) (ifname : IfName) (ipsta : Station)
    (ids : Set UInt32) : Prop where
  registered : registeredNlIds m ifname ipsta = ids
  attached : ∃ iface, m.find ifname = some iface ∧ ipsta ∈ iface.attachedClients

theorem attachedTo_store (m : IfaceManager DrvEvent Bool) {iface : AttachedInterface DrvEvent}
    {ids : Set UInt32} (hname : iface.ifname = ifname) (hattached : ipsta ∈ iface.attachedClients)
    (hids : {nlId | Member iface.events nlId ipsta} = ids) :
    AttachedTo (m.store iface) ifname ipsta ids := by
  have hfind := IfaceManager.find_store m iface
  rw [hname] at hfind
  refine ⟨?_, iface, hfind, hattached⟩
  rw [← hids]
  ext nlId
  simp [registeredNlIds, hfind]

theorem registeredNlIds_getD (m : IfaceManager DrvEvent Bool) (ifname : IfName) (ipsta : Station) :
    {nlId | Member ((m.find ifname).getD ⟨ifname, 0, [], [], false⟩).events nlId ipsta} =
      registeredNlIds m ifname ipsta := by
  ext nlId
  cases hfind : m.find ifname with
  | none => simp [registeredNlIds, hfind]
  | some iface => simp [registeredNlIds, hfind]

/-- `iface_attach_work` of the manager of the kernel interfaces, for a request with the nl_ids
`ids`. -/
theorem attachTo_nl (cmdW : CmdWork) (ifname : IfName) (ids : List UInt32) (tail : List UInt8) :
    (¬ NlAttachable w m.static → ∃ m' : IfaceManager DrvEvent Bool,
      m'.attachedIfaces = m.attachedIfaces ∧
      attachTo w nlInit m cmdW ifname (nlIdArray ids ++ tail) (nlIdArray ids).length =
        requestFailed w m' cmdW.ipsta cmdW.seqNum) ∧
    (NlAttachable w m.static → ∃ m' : IfaceManager DrvEvent Bool,
      AttachedTo m' ifname cmdW.ipsta (registeredNlIds m ifname cmdW.ipsta ∪ {id | id ∈ ids}) ∧
      attachTo w nlInit m cmdW ifname (nlIdArray ids ++ tail) (nlIdArray ids).length =
        (0, m', sendResponse w nlInit cmdW.ipsta cmdW.seqNum dwpaldAttachResp
          (UInt8.ofInt w.nl80211IdGet.2))) := by
  have hprior := registeredNlIds_getD m ifname cmdW.ipsta
  have hname := ifname_attaching m ifname
  rw [attachTo]
  generalize (m.find ifname).getD ⟨ifname, 0, [], [], false⟩ = iface at hprior hname ⊢
  simp only [nlInit, nlManApis]
  constructor
  · intro hno
    exact ⟨{ m with static := (nlIfaceAttach w m.static iface.state).2.2 }, rfl,
      if_pos (nlIfaceAttach_fails hno iface.state)⟩
  · intro hok
    have hregister := registerPart_eq iface.events cmdW.ipsta ids tail
    simp only [nlIfaceAttach_ok hok, hregister, ne_eq, not_true_eq_false, if_false]
    refine ⟨_, ?_, rfl⟩
    refine attachedTo_store _ hname (List.mem_append_right _ (List.mem_singleton_self _)) ?_
    rw [← hprior]
    ext nlId
    simp only [Set.mem_ofPred_eq, Set.mem_union, member_nlRegister, and_true]

/-- `iface_update_event_work` of the manager of the kernel interfaces. -/
theorem updateEventsOf_nl (cmdW : CmdWork) (ifname : IfName) (ids : List UInt32)
    (tail : List UInt8) :
    (m.find ifname = none →
      updateEventsOf w nlInit m cmdW ifname (nlIdArray ids ++ tail) (nlIdArray ids).length =
        requestFailed w m cmdW.ipsta cmdW.seqNum) ∧
    (m.find ifname ≠ none → ∃ m' : IfaceManager DrvEvent Bool,
      updateEventsOf w nlInit m cmdW ifname (nlIdArray ids ++ tail) (nlIdArray ids).length =
        (0, m', sendResponse w nlInit cmdW.ipsta cmdW.seqNum dwpaldUpdateEventResp 0)) := by
  rw [updateEventsOf]
  cases hfind : m.find ifname with
  | none => exact ⟨fun _ => rfl, fun h => absurd rfl h⟩
  | some iface =>
    refine ⟨fun h => (by cases h), fun _ => ?_⟩
    simp only [nlInit, nlManApis, nlUnregisterStaFromEvents]
    by_cases hnil : ids = []
    · subst hnil
      exact ⟨_, rfl⟩
    · have hlen := List.length_pos_iff.mpr hnil
      have hpos : (nlIdArray ids).length ≠ 0 := by
        rw [length_nlIdArray]
        omega
      have hregister := registerPart_eq (withdrawAll cmdW.ipsta iface.events) cmdW.ipsta ids tail
      rw [if_pos hpos] at hregister
      simp only [hpos, hregister, ne_eq, not_true_eq_false, if_false]
      exact ⟨_, rfl⟩

end Manager

/-! The request on its way. -/

variable {p : Path} {d : Dwpald} {drvEvents : List DwpaldDriverNlEventWithId}

/-- The nl_ids that are registered locally. -/
def localNlIds (drvEvents : List DwpaldDriverNlEventWithId) : List UInt32 :=
  drvEvents.map EventWithId.key

theorem drvRequest_bytes (drvEvents : List DwpaldDriverNlEventWithId) :
    (drvRequest drvEvents).bytes =
      reqIfname dwpaldNlDrvIfname ++ nlIdArray (localNlIds drvEvents) := by
  have hids := length_nlIdArray (localNlIds drvEvents)
  rw [localNlIds, List.length_map] at hids
  have hname : (reqIfname dwpaldNlDrvIfname).length = 17 := length_reqIfname _
  have hpad : ((Buffer.fill (drvReqLen drvEvents) 0).write 0 (dwpaldNlDrvIfname ++ [0])).bytes =
      reqIfname dwpaldNlDrvIfname ++ List.replicate (4 * drvEvents.length) 0 := by
    have hfill : (Buffer.fill (drvReqLen drvEvents) 0).bytes =
        [] ++ List.replicate (17 + 4 * drvEvents.length) 0 := rfl
    have hwrite := write_zeros hfill dwpaldNlDrvIfname
      (by rw [show dwpaldNlDrvIfname.length = 6 from rfl]; omega)
    rw [List.nil_append] at hwrite
    rw [show (0 : Nat) = ([] : List UInt8).length from rfl, hwrite, reqIfname,
      show (cstr dwpaldNlDrvIfname).take ifnamsiz = dwpaldNlDrvIfname by decide, List.append_assoc,
      List.replicate_append_replicate]
    congr 2
    rw [show dwpaldNlDrvIfname.length = 6 from rfl, ifnamsiz]
    omega
  rw [drvRequest, Buffer.write_bytes, hpad, localNlIds]
  · rw [show ifnamsiz + 1 = (reqIfname dwpaldNlDrvIfname).length from hname.symm,
      List.take_left' rfl, List.drop_of_length_le, List.append_nil]
    rw [List.length_append, List.length_replicate, hids]
  · rw [hids, drvReqLen]

/-- The request fits into a message. -/
def DrvFits (drvEvents : List DwpaldDriverNlEventWithId) : Prop :=
  drvReqLen drvEvents ≤ waveIpcBuffSize

/-- What the daemon reads from the request that has arrived: the name of the interface and the
nl_ids, or nothing if it did not fit. -/
theorem withIfname_drvRequest {cmd : WvIpcMsg} (seqNum : UInt8) (ipsta : Station)
    (m : IfaceManager DrvEvent Bool)
    (rest : CmdWork → IfName → List UInt8 → Nat → Nat × IfaceManager DrvEvent Bool × List Sent)
    (hdata : cmd.data = p.link.serverPool.write 0 (carried (drvRequest drvEvents).bytes))
    (hlen : cmd.dataLen = (carried (drvRequest drvEvents).bytes).length) :
    (¬ DrvFits drvEvents → withIfname p.world m ⟨cmd, seqNum, ipsta⟩ rest =
      requestFailed p.world m ipsta seqNum) ∧
    (DrvFits drvEvents → ∃ tail, withIfname p.world m ⟨cmd, seqNum, ipsta⟩ rest =
      rest ⟨cmd, seqNum, ipsta⟩ (ifName dwpaldNlDrvIfname)
        (nlIdArray (localNlIds drvEvents) ++ tail) (nlIdArray (localNlIds drvEvents)).length) := by
  have hreqLen := (drvRequest drvEvents).length_eq
  rw [DrvFits]
  constructor
  · intro hlong
    rw [carried, hreqLen, if_neg hlong] at hlen
    have hdata : waveIpcMsgGetData cmd = none := if_pos hlen
    simp only [withIfname, hdata]
  · intro hfit
    have hcarried : carried (drvRequest drvEvents).bytes =
        reqIfname dwpaldNlDrvIfname ++ nlIdArray (localNlIds drvEvents) := by
      rw [carried, hreqLen, if_pos hfit, drvRequest_bytes]
    have hname := length_reqIfname dwpaldNlDrvIfname
    have hids := length_nlIdArray (localNlIds drvEvents)
    have hsize : (reqIfname dwpaldNlDrvIfname ++ nlIdArray (localNlIds drvEvents)).length =
        drvReqLen drvEvents := by rw [← drvRequest_bytes, hreqLen]
    rw [hcarried] at hdata hlen
    have hbytes : cmd.data.bytes = reqIfname dwpaldNlDrvIfname ++
        (nlIdArray (localNlIds drvEvents) ++ p.link.serverPool.bytes.drop
          (drvReqLen drvEvents)) := by
      rw [hdata, Buffer.write_bytes, hsize]
      · simp only [List.take_zero, List.nil_append, Nat.zero_add, List.append_assoc]
      · rw [hsize]
        exact (Nat.zero_add _).trans_le hfit
    rw [List.length_append] at hlen
    have hget : waveIpcMsgGetData cmd = some cmd.data.bytes := if_neg (by omega)
    have hcopy : CString.copyFrom cmd.data.bytes 16 (by decide) = ifName dwpaldNlDrvIfname := by
      rw [ifName, CString.ext_iff, CString.copyFrom_bytes_eq (by decide) (by decide),
        CString.copyFrom_bytes_eq (by decide) (by decide), hbytes, cstr_reqIfname, ifnamsiz,
        List.take_take, Nat.min_self]
    refine ⟨p.link.serverPool.bytes.drop (drvReqLen drvEvents) ++ p.world.beyond, ?_⟩
    have hdrop : (cmd.data.bytes ++ p.world.beyond).drop 17 =
        nlIdArray (localNlIds drvEvents) ++
          (p.link.serverPool.bytes.drop (drvReqLen drvEvents) ++ p.world.beyond) := by
      rw [hbytes, List.append_assoc, List.drop_left' hname, List.append_assoc]
    simp only [withIfname, hget, waveIpcMsgGetSize, hcopy, hdrop]
    rw [if_neg (by omega), hlen, hname, Nat.add_sub_cancel_left]

/-- The daemon attaches the kernel for the request. -/
def DrvAccepted (p : Path) (d : Dwpald) (drvEvents : List DwpaldDriverNlEventWithId) : Prop :=
  DrvFits drvEvents ∧ NlAttachable p.world d.nlMan.static

/-- A refused request: the client keeps the id that it has. -/
theorem keepId_reqFailed (p : Path) (m : IfaceManager DrvEvent Bool) (respType : UInt8)
    (d : Dwpald) (nl80211Id : Int) :
    ∃ ret, ret ≠ DwpaldRet.success ∧
      keepId nl80211Id (regCmdResult respType dwpaldIfTypeKernel (p.link.finish p.ipsta
        (d, (requestFailed p.world m p.ipsta p.link.seqNum).2.2))) = (ret, nl80211Id, d) := by
  obtain ⟨ret, hret, hresult⟩ := regCmdResult_reqFailed p m respType dwpaldIfTypeKernel d
  rw [hresult]
  exact ⟨ret, hret, rfl⟩

/-- A request that was granted: the client takes the id from the response, unless the link fails
it. -/
theorem keepId_response (p : Path) (respType state : UInt8) (d : Dwpald) (nl80211Id : Int) :
    ∃ ret, (ret = DwpaldRet.success ↔ p.link.failure = none) ∧
      keepId nl80211Id (regCmdResult respType dwpaldIfTypeKernel (p.link.finish p.ipsta
        (d, sendResponse p.world nlInit p.ipsta p.link.seqNum respType state))) =
          (ret, if ret = .success then (state.toNat : Int) else nl80211Id, d) := by
  obtain ⟨hanswered, hfailed⟩ := regCmdResult_response p nlInit respType state d
  have htype : dwpaldIfTypeKernel = nlInit.iftype := rfl
  by_cases hlink : p.link.failure = none
  · refine ⟨.success, iff_of_true rfl hlink, ?_⟩
    rw [htype, hanswered hlink]
    rfl
  · obtain ⟨ret, hret, hresult⟩ := hfailed hlink
    refine ⟨ret, iff_of_false hret hlink, ?_⟩
    rw [htype, hresult, if_neg hret]
    rfl

/-- The daemon executes the work of the manager of the kernel interfaces. -/
theorem sendRegCmd_kernel (p : Path) (d : Dwpald) (reqType respType : UInt8)
    (work : CmdWork → Work) (hreq : reqType = dwpaldCmd ∨ reqType = dwpaldAttachReq ∨
      reqType = dwpaldDetachReq ∨ reqType = dwpaldUpdateEventReq)
    (hwork : ∀ cmd, makeWork ⟨reqType, dwpaldIfTypeKernel, 0, 0, 0, 0⟩ p.ipsta p.link.seqNum cmd =
      some (work ⟨cmd, p.link.seqNum, p.ipsta⟩))
    (drvEvents : List DwpaldDriverNlEventWithId) :
    ∃ cmd : WvIpcMsg, cmd.data = p.link.serverPool.write 0 (carried (drvRequest drvEvents).bytes) ∧
      cmd.dataLen = (carried (drvRequest drvEvents).bytes).length ∧
      ∀ r, workFunc p.world nlInit d.nlMan (work ⟨cmd, p.link.seqNum, p.ipsta⟩) = r →
        sendRegCmd reqType respType p d (drvRequest drvEvents).bytes dwpaldIfTypeKernel =
          regCmdResult respType dwpaldIfTypeKernel (p.link.finish p.ipsta
            ({ d with nlMan := r.2.1 }, r.2.2)) := by
  obtain ⟨cmd, hdata, hlen, hsend⟩ := sendRegCmd_eq p d (drvRequest drvEvents).bytes respType hreq
    (show dwpaldIfTypeKernel = IfType.kernel.byte from rfl)
  refine ⟨cmd, hdata, hlen, fun r hr => ?_⟩
  rw [hsend _ (hwork cmd), Dwpald.execWork, hr]

/-- The work that the daemon makes of the attach request. -/
theorem attachWork_nl {cmd : WvIpcMsg}
    (hdata : cmd.data = p.link.serverPool.write 0 (carried (drvRequest drvEvents).bytes))
    (hlen : cmd.dataLen = (carried (drvRequest drvEvents).bytes).length) :
    (¬ DrvAccepted p d drvEvents → ∃ m', m'.attachedIfaces = d.nlMan.attachedIfaces ∧
      ifaceAttachWork p.world nlInit d.nlMan ⟨cmd, p.link.seqNum, p.ipsta⟩ =
        requestFailed p.world m' p.ipsta p.link.seqNum) ∧
    (DrvAccepted p d drvEvents → ∃ m', AttachedTo m' (ifName dwpaldNlDrvIfname) p.ipsta
        (registeredNlIds d.nlMan (ifName dwpaldNlDrvIfname) p.ipsta ∪
          {nlId | nlId ∈ localNlIds drvEvents}) ∧
      ifaceAttachWork p.world nlInit d.nlMan ⟨cmd, p.link.seqNum, p.ipsta⟩ =
        (0, m', sendResponse p.world nlInit p.ipsta p.link.seqNum dwpaldAttachResp
          (UInt8.ofInt p.world.nl80211IdGet.2))) := by
  obtain ⟨hlong, hfits⟩ := withIfname_drvRequest p.link.seqNum p.ipsta d.nlMan
    (attachTo p.world nlInit d.nlMan) hdata hlen
  rw [ifaceAttachWork]
  by_cases hfit : DrvFits drvEvents
  · obtain ⟨tail, hrest⟩ := hfits hfit
    obtain ⟨hno, hyes⟩ := attachTo_nl (w := p.world) (m := d.nlMan)
      ⟨cmd, p.link.seqNum, p.ipsta⟩ (ifName dwpaldNlDrvIfname) (localNlIds drvEvents) tail
    rw [hrest, DrvAccepted, and_iff_right hfit]
    exact ⟨hno, hyes⟩
  · refine ⟨fun _ => ⟨d.nlMan, rfl, hlong hfit⟩, fun h => absurd h.1 hfit⟩

/-- `dwpald_send_drv_nl_attach`: when it succeeds, what the client keeps as the `nl80211_id`, and
what the daemon leaves registered. -/
theorem sendDrvNlAttach_spec (p : Path) (d : Dwpald) (nl80211Id : Int)
    (drvEvents : List DwpaldDriverNlEventWithId) :
    ∃ ret nlMan, (ret = DwpaldRet.success ↔ DrvAccepted p d drvEvents ∧ p.link.failure = none) ∧
      dwpaldSendDrvNlAttach p d nl80211Id drvEvents =
        (ret, if ret = .success then ((UInt8.ofInt p.world.nl80211IdGet.2).toNat : Int)
          else nl80211Id, { d with nlMan := nlMan }) ∧
      (¬ DrvAccepted p d drvEvents → nlMan.attachedIfaces = d.nlMan.attachedIfaces) ∧
      (DrvAccepted p d drvEvents → AttachedTo nlMan (ifName dwpaldNlDrvIfname) p.ipsta
        (registeredNlIds d.nlMan (ifName dwpaldNlDrvIfname) p.ipsta ∪
          {nlId | nlId ∈ localNlIds drvEvents})) := by
  obtain ⟨cmd, hdata, hlen, hsend⟩ := sendRegCmd_kernel p d dwpaldAttachReq dwpaldAttachResp
    .attach (.inr (.inl rfl)) (fun _ => rfl) drvEvents
  obtain ⟨hno, hyes⟩ := attachWork_nl (d := d) hdata hlen
  rw [dwpaldSendDrvNlAttach, dwpaldSendAttachCmd]
  by_cases haccepted : DrvAccepted p d drvEvents
  · obtain ⟨m', hattached, hwork⟩ := hyes haccepted
    obtain ⟨ret, hret, hresult⟩ := keepId_response p dwpaldAttachResp
      (UInt8.ofInt p.world.nl80211IdGet.2) { d with nlMan := m' } nl80211Id
    refine ⟨ret, m', ?_, ?_, fun h => absurd haccepted h, fun _ => hattached⟩
    · rw [hret, and_iff_right haccepted]
    · rw [hsend _ hwork]
      exact hresult
  · obtain ⟨m', hsame, hwork⟩ := hno haccepted
    obtain ⟨ret, hret, hresult⟩ := keepId_reqFailed p m' dwpaldAttachResp { d with nlMan := m' }
      nl80211Id
    refine ⟨ret, m', iff_of_false hret fun h => haccepted h.1, ?_, fun _ => hsame,
      fun h => absurd h haccepted⟩
    rw [hsend _ hwork, if_neg hret]
    exact hresult

/-- The daemon updates the events of the station for the request. -/
def UpdateAccepted (d : Dwpald) (drvEvents : List DwpaldDriverNlEventWithId) : Prop :=
  DrvFits drvEvents ∧ d.nlMan.find (ifName dwpaldNlDrvIfname) ≠ none

/-- `dwpald_send_drv_nl_update_event`: the response carries no id. -/
theorem sendDrvNlUpdateEvent_spec (p : Path) (d : Dwpald) (nl80211Id : Int)
    (drvEvents : List DwpaldDriverNlEventWithId) :
    ∃ ret nlMan, (ret = DwpaldRet.success ↔ UpdateAccepted d drvEvents ∧ p.link.failure = none) ∧
      dwpaldSendDrvNlUpdateEvent p d nl80211Id drvEvents =
        (ret, if ret = .success then 0 else nl80211Id, { d with nlMan := nlMan }) := by
  obtain ⟨cmd, hdata, hlen, hsend⟩ := sendRegCmd_kernel p d dwpaldUpdateEventReq
    dwpaldUpdateEventResp .updateEvent (.inr (.inr (.inr rfl))) (fun _ => rfl) drvEvents
  obtain ⟨hlong, hfits⟩ := withIfname_drvRequest p.link.seqNum p.ipsta d.nlMan
    (updateEventsOf p.world nlInit d.nlMan) hdata hlen
  rw [dwpaldSendDrvNlUpdateEvent, dwpaldSendUpdateEventCmd]
  have hwork : (¬ UpdateAccepted d drvEvents →
      workFunc p.world nlInit d.nlMan (.updateEvent ⟨cmd, p.link.seqNum, p.ipsta⟩) =
        requestFailed p.world d.nlMan p.ipsta p.link.seqNum) ∧
      (UpdateAccepted d drvEvents → ∃ m',
        workFunc p.world nlInit d.nlMan (.updateEvent ⟨cmd, p.link.seqNum, p.ipsta⟩) =
          (0, m', sendResponse p.world nlInit p.ipsta p.link.seqNum dwpaldUpdateEventResp 0)) := by
    rw [workFunc, ifaceUpdateEventWork]
    by_cases hfit : DrvFits drvEvents
    · obtain ⟨tail, hrest⟩ := hfits hfit
      obtain ⟨hno, hyes⟩ := updateEventsOf_nl (w := p.world) (m := d.nlMan)
        ⟨cmd, p.link.seqNum, p.ipsta⟩ (ifName dwpaldNlDrvIfname) (localNlIds drvEvents) tail
      rw [hrest, UpdateAccepted, and_iff_right hfit, not_ne_iff]
      exact ⟨hno, hyes⟩
    · exact ⟨fun _ => hlong hfit, fun h => absurd h.1 hfit⟩
  by_cases haccepted : UpdateAccepted d drvEvents
  · obtain ⟨m', hanswer⟩ := hwork.2 haccepted
    obtain ⟨ret, hret, hresult⟩ := keepId_response p dwpaldUpdateEventResp 0
      { d with nlMan := m' } nl80211Id
    refine ⟨ret, m', ?_, ?_⟩
    · rw [hret, and_iff_right haccepted]
    · rw [hsend _ hanswer]
      exact hresult
  · obtain ⟨ret, hret, hresult⟩ := keepId_reqFailed p d.nlMan dwpaldUpdateEventResp d nl80211Id
    refine ⟨ret, d.nlMan, iff_of_false hret fun h => haccepted h.1, ?_⟩
    rw [hsend _ (hwork.1 haccepted), if_neg hret]
    exact hresult

end Dwpal.Client
