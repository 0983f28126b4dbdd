import Dwpal.Lib.Machine
import Dwpal.Client.Reconnect

/-! The id of the `nl80211` family: the daemon resolves it when it attaches the kernel, and the
client keeps what the responses say. -/

namespace Dwpal.Client

open Ipc Daemon Machine

-- Only what `sendDrvNlAttach_spec` and `sendDrvNlUpdateEvent_spec` say of the requests is used.
attribute [local irreducible] dwpaldSendDrvNlAttach dwpaldSendDrvNlUpdateEvent

/-- The two requests for the driver: each gives the status, the `nl80211_id`, and the daemon. -/
structure DrvSends where
  sendDrvNlAttach : List DwpaldDriverNlEventWithId → DwpaldRet × Int × Dwpald
  sendDrvNlUpdateEvent : List DwpaldDriverNlEventWithId → DwpaldRet × Int × Dwpald

/-- What the requests end with. -/
def DrvSends.requests (sends : DrvSends) : DrvRequests where
  sendDrvNlAttach drvEvents := (sends.sendDrvNlAttach drvEvents).1
  sendDrvNlUpdateEvent drvEvents := (sends.sendDrvNlUpdateEvent drvEvents).1

/-- The request that the call sends to the daemon, with the events in it. -/
inductive DriverRequest where
  | attach (drvEvents : List DwpaldDriverNlEventWithId)
  | updateEvent (drvEvents : List DwpaldDriverNlEventWithId)

/-- Which request `dwpald_nl_drv_attach_with_id` sends: the attach of a driver that is not attached,
or an update when the call brings events that are not registered. -/
def driverRequest (drvNlAttch : Option DwpaldDrvNlAttachment)
    (driverEvents : Option (List DwpaldDriverNlEvent)) (id : UInt32) : Option DriverRequest :=
  match driverEvents, drvNlAttch with
  | none, _ => none
  | some driverEvents, some attch =>
    if id = defaultAttachId then none
    else
      match dwpaldAddDriverEvents attch.drvEvents driverEvents id with
      | some (0, drvEvents) =>
        if attch.drvEvents.length ≠ drvEvents.length then some (.updateEvent drvEvents) else none
      | _ => none
  | some driverEvents, none =>
    match dwpaldCopyDriverEvents [] id driverEvents with
    | (0, drvEvents) => some (.attach drvEvents)
    | _ => none

def DrvSends.send (sends : DrvSends) : DriverRequest → DwpaldRet × Int × Dwpald
  | .attach drvEvents => sends.sendDrvNlAttach drvEvents
  | .updateEvent drvEvents => sends.sendDrvNlUpdateEvent drvEvents

/-- `dwpald_nl_drv_attach_with_id` with its request to the daemon `d`: the status, the connection
with the id that the request leaves, and the daemon. -/
def attachDriver (sends : DrvSends) (d : Dwpald) (conn : DwpaldConnection)
    (driverEvents : Option (List DwpaldDriverNlEvent)) (nlEventCb : Option Clb) (id : UInt32) :
    DwpaldRet × DwpaldConnection × Dwpald :=
  let attached :=
    dwpaldNlDrvAttachWithId sends.requests conn.drvNlAttch driverEvents nlEventCb id
  match driverRequest conn.drvNlAttch driverEvents id with
  | some request =>
    let (_, nl80211Id, d) := sends.send request
    (attached.1, { conn with drvNlAttch := attached.2, nl80211Id := nl80211Id }, d)
  | none => (attached.1, { conn with drvNlAttch := attached.2 }, d)

section AttachDriver

variable (sends : DrvSends) (d : Dwpald) (conn : DwpaldConnection)
  (driverEvents : Option (List DwpaldDriverNlEvent)) (nlEventCb : Option Clb) (id : UInt32)

/-- The id is what the request leaves, if there is one. -/
theorem attachDriver_eq :
    (attachDriver sends d conn driverEvents nlEventCb id).1 =
        (dwpaldNlDrvAttachWithId sends.requests conn.drvNlAttch driverEvents nlEventCb id).1 ∧
      (attachDriver sends d conn driverEvents nlEventCb id).2.1.drvNlAttch =
        (dwpaldNlDrvAttachWithId sends.requests conn.drvNlAttch driverEvents nlEventCb id).2 ∧
      (attachDriver sends d conn driverEvents nlEventCb id).2.1.nl80211Id =
        ((driverRequest conn.drvNlAttch driverEvents id).elim conn.nl80211Id fun request =>
          (sends.send request).2.1) := by
  rw [attachDriver]
  cases driverRequest conn.drvNlAttch driverEvents id with
  | some request => exact ⟨rfl, rfl, rfl⟩
  | none => exact ⟨rfl, rfl, rfl⟩

variable {driverEvents nlEventCb id} {drvNlAttch : Option DwpaldDrvNlAttachment}

/-- A call succeeds only if its request does, or without one if the driver is attached. -/
theorem drvAttach_success
    (h : (dwpaldNlDrvAttachWithId sends.requests drvNlAttch driverEvents nlEventCb id).1 =
      .success) :
    (∀ request, driverRequest drvNlAttch driverEvents id = some request →
        (sends.send request).1 = .success) ∧
      (driverRequest drvNlAttch driverEvents id = none → drvNlAttch.isSome) := by
  cases driverEvents with
  | none => cases h
  | some driverEvents =>
    cases drvNlAttch with
    | some attch =>
      refine ⟨fun request hrequest => ?_, fun _ => rfl⟩
      rw [driverRequest] at hrequest
      rw [dwpaldNlDrvAttachWithId] at h
      by_cases hid : id = defaultAttachId
      · rw [if_pos hid] at hrequest
        cases hrequest
      · rw [if_neg hid] at hrequest h
        cases hadd : dwpaldAddDriverEvents attch.drvEvents driverEvents id with
        | none =>
          rw [hadd] at hrequest
          cases hrequest
        | some added =>
          obtain ⟨n, drvEvents⟩ := added
          rw [hadd] at hrequest h
          by_cases hn : n = 0
          · subst hn
            simp only [Option.ite_none_right_eq_some] at hrequest h
            obtain ⟨hnew, hrequest⟩ := hrequest
            cases hrequest
            rw [if_pos hnew] at h
            by_contra hfailed
            have hfailed' : sends.requests.sendDrvNlUpdateEvent drvEvents ≠ .success := hfailed
            rw [if_pos hfailed'] at h
            exact hfailed h
          · simp at h
    | none =>
      rw [driverRequest]
      rw [dwpaldNlDrvAttachWithId] at h
      generalize dwpaldCopyDriverEvents [] id driverEvents = copied at h ⊢
      obtain ⟨n, drvEvents⟩ := copied
      by_cases hn : n = 0
      · subst hn
        refine ⟨fun request hrequest => ?_, fun hnone => by cases hnone⟩
        cases hrequest
        have hret : (sends.send (.attach drvEvents)).1 =
          sends.requests.sendDrvNlAttach drvEvents := rfl
        rw [hret]
        cases hsent : sends.requests.sendDrvNlAttach drvEvents with
        | success => rfl
        | _ => simp [hsent] at h
      · simp [hn] at h

/-- The driver gets attached by a call that succeeds. -/
theorem drvAttach_attached
    (h : (dwpaldNlDrvAttachWithId sends.requests drvNlAttch driverEvents nlEventCb id).2.isSome) :
    drvNlAttch.isSome ∨
      (dwpaldNlDrvAttachWithId sends.requests drvNlAttch driverEvents nlEventCb id).1 =
        .success := by
  cases drvNlAttch with
  | some attch => exact .inl rfl
  | none =>
    right
    cases driverEvents with
    | none => cases h
    | some driverEvents =>
      rw [dwpaldNlDrvAttachWithId] at h ⊢
      generalize dwpaldCopyDriverEvents [] id driverEvents = copied at h ⊢
      obtain ⟨n, drvEvents⟩ := copied
      by_cases hn : n = 0
      · subst hn
        cases hsent : sends.requests.sendDrvNlAttach drvEvents with
        | success => simp [hsent]
        | _ => simp [hsent] at h
      · simp [hn] at h

end AttachDriver

/-! Runs. -/

/-- A client and the daemon. `succeeded` says that an attach of the driver has succeeded since the
connection was made, and `resolved` is the id that the daemon found when it last attached the kernel
for this client. -/
structure DrvSession where
  conn : DwpaldConnection
  daemon : Dwpald
  succeeded : Bool
  resolved : Option Int

/-- What happens: an attach of the driver, a reconnect, a `dwpald_disconnect` with a new connection,
and whatever the other functions of the client do to its other attachments and everybody else to the
daemon. -/
inductive DrvCall where
  | attach (p : Path) (driverEvents : Option (List DwpaldDriverNlEvent)) (nlEventCb : Option Clb)
    (id : UInt32)
  | reconnect (ps : IfName → Path) (drvPath : Path)
  | disconnect
  | others (hapAttchs : List DwpaldHostapAttachment) (daemon : Dwpald)

/-- The requests of a call on the connection. -/
def sendsTo (p : Path) (d : Dwpald) (nl80211Id : Int) : DrvSends where
  sendDrvNlAttach := dwpaldSendDrvNlAttach p d nl80211Id
  sendDrvNlUpdateEvent := dwpaldSendDrvNlUpdateEvent p d nl80211Id

instance (w : World) (isAttached : Bool) : Decidable (NlAttachable w isAttached) :=
  inferInstanceAs (Decidable (_ ∧ _))

instance (drvEvents : List DwpaldDriverNlEventWithId) : Decidable (DrvFits drvEvents) :=
  inferInstanceAs (Decidable (_ ≤ _))

instance (p : Path) (d : Dwpald) (drvEvents : List DwpaldDriverNlEventWithId) :
    Decidable (DrvAccepted p d drvEvents) :=
  inferInstanceAs (Decidable (_ ∧ _))

namespace DrvSession

/-- The attach request for the driver that the call sends. -/
def attachRequest (s : DrvSession) : DrvCall → Option (Path × List DwpaldDriverNlEventWithId)
  | .attach p driverEvents _ id =>
    match driverRequest s.conn.drvNlAttch driverEvents id with
    | some (.attach drvEvents) => some (p, drvEvents)
    | _ => none
  | .reconnect ps drvPath =>
    if (reattach ps s.daemon s.conn.hostapAttachments).1 = 0 then
      s.conn.drvNlAttch.map fun attch => (drvPath, attch.drvEvents)
    else none
  | _ => none

/-- The update request for the driver that the call sends. -/
def updateRequest (s : DrvSession) : DrvCall → Option (Path × List DwpaldDriverNlEventWithId)
  | .attach p driverEvents _ id =>
    match driverRequest s.conn.drvNlAttch driverEvents id with
    | some (.updateEvent drvEvents) => some (p, drvEvents)
    | _ => none
  | _ => none

/-- The daemon resolves the id when it grants an attach request. -/
def resolvedAfter (s : DrvSession) (call : DrvCall) : Option Int :=
  match s.attachRequest call with
  | some (p, drvEvents) =>
    if DrvAccepted p s.daemon drvEvents then some p.world.nl80211IdGet.2 else s.resolved
  | none => s.resolved

def step (s : DrvSession) (call : DrvCall) : Option DrvSession :=
  match call with
  | .attach p driverEvents nlEventCb id =>
    let answer :=
      attachDriver (sendsTo p s.daemon s.conn.nl80211Id) s.daemon s.conn driverEvents nlEventCb id
    some ⟨answer.2.1, answer.2.2, s.succeeded || answer.1 = .success, s.resolvedAfter call⟩
  | .reconnect ps drvPath =>
    let answer := dwpaldReconnected ps drvPath s.conn s.daemon
    some ⟨answer.2.1, answer.2.2.2, s.succeeded, s.resolvedAfter call⟩
  | .disconnect => some ⟨⟨[], none, -1⟩, s.daemon, false, none⟩
  | .others hapAttchs daemon =>
    some { s with conn := { s.conn with hostapAttachments := hapAttchs }, daemon := daemon }

/-- The client's id is the one that the daemon has resolved, once an attach has succeeded. -/
def Agrees (s : DrvSession) : Prop := s.succeeded = true → s.resolved = some s.conn.nl80211Id

/-- Every id that a response brings survives `header[2]`, a granted attach whose response is lost
did not change the id, and no update of the events succeeds, unless the id is 0. -/
structure Undistorted (s : DrvSession) (call : DrvCall) : Prop where
  answered : ∀ p drvEvents, s.attachRequest call = some (p, drvEvents) →
    DrvAccepted p s.daemon drvEvents → p.link.failure = none →
      0 ≤ p.world.nl80211IdGet.2 ∧ p.world.nl80211IdGet.2 < 256
  lost : ∀ p drvEvents, s.attachRequest call = some (p, drvEvents) →
    DrvAccepted p s.daemon drvEvents → p.link.failure ≠ none →
      s.succeeded = false ∨ s.resolved = some p.world.nl80211IdGet.2
  updated : ∀ p drvEvents, s.updateRequest call = some (p, drvEvents) →
    UpdateAccepted s.daemon drvEvents → p.link.failure = none → s.resolved = some 0

/-- The invariant: a driver that is attached was attached by a call that succeeded. -/
structure Inv (s : DrvSession) : Prop where
  attached : s.conn.drvNlAttch.isSome = true → s.succeeded = true
  agrees : s.Agrees

theorem resolvedAfter_none {s : DrvSession} {call : DrvCall} (h : s.attachRequest call = none) :
    s.resolvedAfter call = s.resolved := by
  rw [resolvedAfter, h]

/-- The ids that survive the cast to `uint8_t`. -/
theorem toNat_ofInt (n : Int) : ((UInt8.ofInt n).toNat : Int) = n ↔ 0 ≤ n ∧ n < 256 := by
  rw [UInt8.ofInt, UInt8.toNat_ofNat']
  omega

/-- A request that is sent leaves the id that the daemon resolved. -/
theorem attach_id {s : DrvSession} {call : DrvCall} {p : Path} {d : Dwpald}
    {drvEvents : List DwpaldDriverNlEventWithId} (hs : s.Inv) (hok : s.Undistorted call)
    (hrequest : s.attachRequest call = some (p, drvEvents)) (hd : d.nlMan = s.daemon.nlMan)
    (hsucceeded : (dwpaldSendDrvNlAttach p d s.conn.nl80211Id drvEvents).1 = .success ∨
      s.succeeded = true) :
    s.resolvedAfter call = some (dwpaldSendDrvNlAttach p d s.conn.nl80211Id drvEvents).2.1 := by
  obtain ⟨ret, nlMan, hret, hsend, -⟩ := sendDrvNlAttach_spec p d s.conn.nl80211Id drvEvents
  have hsame : DrvAccepted p d drvEvents ↔ DrvAccepted p s.daemon drvEvents := by
    rw [DrvAccepted, DrvAccepted, hd]
  rw [hsame] at hret
  rw [hsend] at hsucceeded ⊢
  rw [resolvedAfter, hrequest]
  simp only at hsucceeded ⊢
  by_cases haccepted : DrvAccepted p s.daemon drvEvents
  · rw [if_pos haccepted]
    by_cases hlink : p.link.failure = none
    · rw [if_pos (hret.mpr ⟨haccepted, hlink⟩),
        (toNat_ofInt _).mpr (hok.answered p drvEvents hrequest haccepted hlink)]
    · have hne : ret ≠ .success := fun h => hlink (hret.mp h).2
      have hbefore := hsucceeded.resolve_left hne
      rw [if_neg hne]
      rcases hok.lost p drvEvents hrequest haccepted hlink with hnot | hsame
      · rw [hbefore] at hnot
        cases hnot
      · rw [← hsame]
        exact hs.agrees hbefore
  · have hne : ret ≠ .success := fun h => haccepted (hret.mp h).1
    rw [if_neg haccepted, if_neg hne]
    exact hs.agrees (hsucceeded.resolve_left hne)

/-- An update that is sent leaves the id alone, or it was 0. -/
theorem update_id {s : DrvSession} {call : DrvCall} {p : Path}
    {drvEvents : List DwpaldDriverNlEventWithId} (hs : s.Inv) (hok : s.Undistorted call)
    (hrequest : s.updateRequest call = some (p, drvEvents)) (hsucceeded : s.succeeded = true) :
    s.resolved =
      some (dwpaldSendDrvNlUpdateEvent p s.daemon s.conn.nl80211Id drvEvents).2.1 := by
  obtain ⟨ret, nlMan, hret, hsend⟩ :=
    sendDrvNlUpdateEvent_spec p s.daemon s.conn.nl80211Id drvEvents
  rw [hsend]
  simp only
  by_cases hsuccess : ret = .success
  · obtain ⟨haccepted, hlink⟩ := hret.mp hsuccess
    rw [if_pos hsuccess]
    exact hok.updated p drvEvents hrequest haccepted hlink
  · rw [if_neg hsuccess]
    exact hs.agrees hsucceeded

/-- An update is sent only when the driver is attached. -/
theorem isSome_of_updateEvent {drvNlAttch : Option DwpaldDrvNlAttachment}
    {driverEvents : Option (List DwpaldDriverNlEvent)} {id : UInt32}
    {drvEvents : List DwpaldDriverNlEventWithId}
    (h : driverRequest drvNlAttch driverEvents id = some (.updateEvent drvEvents)) :
    drvNlAttch.isSome = true := by
  cases drvNlAttch with
  | some attch => rfl
  | none =>
    cases driverEvents with
    | none => cases h
    | some driverEvents =>
      simp only [driverRequest] at h
      split at h <;> cases h

theorem attach_inv {s : DrvSession} {p : Path} {driverEvents : Option (List DwpaldDriverNlEvent)}
    {nlEventCb : Option Clb} {id : UInt32} (hs : s.Inv)
    (hok : s.Undistorted (.attach p driverEvents nlEventCb id)) (sends : DrvSends)
    (hattach : ∀ drvEvents, sends.send (.attach drvEvents) =
      dwpaldSendDrvNlAttach p s.daemon s.conn.nl80211Id drvEvents)
    (hupdate : ∀ drvEvents, sends.send (.updateEvent drvEvents) =
      dwpaldSendDrvNlUpdateEvent p s.daemon s.conn.nl80211Id drvEvents)
    {ret : DwpaldRet} {conn : DwpaldConnection} {daemon : Dwpald}
    (hanswer : attachDriver sends s.daemon s.conn driverEvents nlEventCb id = (ret, conn, daemon)) :
    Inv ⟨conn, daemon, s.succeeded || ret = .success,
      s.resolvedAfter (.attach p driverEvents nlEventCb id)⟩ := by
  obtain ⟨hstatus, hattch, hid⟩ := attachDriver_eq sends s.daemon s.conn driverEvents nlEventCb id
  have hret := @drvAttach_success sends driverEvents nlEventCb id s.conn.drvNlAttch
  have hattached := @drvAttach_attached sends driverEvents nlEventCb id s.conn.drvNlAttch
  rw [← hstatus] at hret
  rw [← hstatus, ← hattch] at hattached
  rw [hanswer] at hid hret hattached
  refine ⟨fun h => ?_, fun h => ?_⟩
  · rcases hattached h with hbefore | hsuccess
    · simp [hs.attached hbefore]
    · simp [show ret = .success from hsuccess]
  · simp only [Bool.or_eq_true, decide_eq_true_eq] at h
    rw [show conn.nl80211Id = _ from hid]
    cases hrequest : driverRequest s.conn.drvNlAttch driverEvents id with
    | none =>
      have hnone : s.attachRequest (.attach p driverEvents nlEventCb id) = none := by
        simp only [attachRequest, hrequest]
      have hbefore : s.succeeded = true :=
        h.elim (fun hb => hb) fun hsuccess => hs.attached ((hret hsuccess).2 hrequest)
      rw [resolvedAfter_none hnone, Option.elim_none]
      exact hs.agrees hbefore
    | some request =>
      have hsent := fun hsuccess => (hret hsuccess).1 request hrequest
      rw [Option.elim_some]
      cases request with
      | attach drvEvents =>
        have hsome : s.attachRequest (.attach p driverEvents nlEventCb id) =
            some (p, drvEvents) := by simp only [attachRequest, hrequest]
        rw [hattach] at hsent ⊢
        exact attach_id hs hok hsome rfl (h.symm.imp_left hsent)
      | updateEvent drvEvents =>
        have hnone : s.attachRequest (.attach p driverEvents nlEventCb id) = none := by
          simp only [attachRequest, hrequest]
        have hsome : s.updateRequest (.attach p driverEvents nlEventCb id) =
            some (p, drvEvents) := by simp only [updateRequest, hrequest]
        have hbefore := hs.attached (isSome_of_updateEvent hrequest)
        rw [resolvedAfter_none hnone, hupdate]
        exact update_id hs hok hsome hbefore

/-- The driver part of `dwpald_reconnected`: the attachment stays, and the id is what the attach
leaves, if it is sent. -/
theorem reconnected_id (ps : IfName → Path) (drvPath : Path) (conn : DwpaldConnection)
    (d : Dwpald) :
    (dwpaldReconnected ps drvPath conn d).2.1.drvNlAttch = conn.drvNlAttch ∧
      (dwpaldReconnected ps drvPath conn d).2.1.nl80211Id =
        if (reattach ps d conn.hostapAttachments).1 = 0 then
          conn.drvNlAttch.elim conn.nl80211Id fun attch =>
            (dwpaldSendDrvNlAttach drvPath (reattach ps d conn.hostapAttachments).2.2.2
              conn.nl80211Id attch.drvEvents).2.1
        else conn.nl80211Id := by
  rw [dwpaldReconnected]
  generalize reattach ps d conn.hostapAttachments = r
  obtain ⟨ret, hapAttchs, emulated, d'⟩ := r
  cases ret with
  | zero =>
    obtain ⟨hapAttchs', drvNlAttch, nl80211Id⟩ := conn
    cases drvNlAttch with
    | none => exact ⟨rfl, rfl⟩
    | some attch => exact ⟨rfl, rfl⟩
  | succ ret => exact ⟨rfl, rfl⟩

theorem reconnect_inv {s : DrvSession} {ps : IfName → Path} {drvPath : Path} (hs : s.Inv)
    (hok : s.Undistorted (.reconnect ps drvPath)) {s' : DrvSession}
    (hstep : s.step (.reconnect ps drvPath) = some s') : s'.Inv := by
  obtain ⟨hattch, hid⟩ := reconnected_id ps drvPath s.conn s.daemon
  have hnl := (reattach_frame ps s.daemon s.conn.hostapAttachments).1
  cases hstep
  refine ⟨fun h => hs.attached (hattch ▸ h), fun h => ?_⟩
  have hkept : s.attachRequest (.reconnect ps drvPath) = none →
      s.resolvedAfter (.reconnect ps drvPath) = some s.conn.nl80211Id := fun hnone =>
    (resolvedAfter_none hnone).trans (hs.agrees h)
  refine Eq.trans ?_ (congrArg some hid.symm)
  by_cases hsent : (reattach ps s.daemon s.conn.hostapAttachments).1 = 0
  · rw [if_pos hsent]
    cases hdrv : s.conn.drvNlAttch with
    | none => exact hkept (by rw [attachRequest, if_pos hsent, hdrv, Option.map_none])
    | some attch =>
      refine attach_id hs hok ?_ hnl (.inr h)
      rw [attachRequest, if_pos hsent, hdrv, Option.map_some]
  · rw [if_neg hsent]
    exact hkept (by rw [attachRequest, if_neg hsent])

theorem step_inv {s : DrvSession} {call : DrvCall} {s' : DrvSession} (hs : s.Inv)
    (hok : s.Undistorted call) (hstep : s.step call = some s') : s'.Inv := by
  cases call with
  | attach p driverEvents nlEventCb id =>
    cases hstep
    exact attach_inv hs hok (sendsTo p s.daemon s.conn.nl80211Id) (fun _ => rfl) (fun _ => rfl) rfl
  | reconnect ps drvPath => exact reconnect_inv hs hok hstep
  | disconnect =>
    cases hstep
    exact ⟨fun h => (by cases h), fun h => (by cases h)⟩
  | others hapAttchs daemon =>
    cases hstep
    exact ⟨hs.attached, hs.agrees⟩

/-- The connection that `dwpald_connect` makes, to the daemon `d`. -/
def connected (d : Dwpald) : DrvSession := ⟨⟨[], none, -1⟩, d, false, none⟩

end DrvSession

/-- In every run whose steps bring no distorted id the client and the daemon agree about the id of
the kernel family, from the first attach of the driver that succeeds on. -/
theorem nl80211IdAgreement (d : Dwpald) (calls : List DrvCall) (s : DrvSession)
    (hrun : exec DrvSession.step (DrvSession.connected d) calls = some s)
    (hok : Along DrvSession.step DrvSession.Undistorted (DrvSession.connected d) calls) :
    s.Agrees := by
  have hinit : (DrvSession.connected d).Inv := ⟨fun h => (by cases h), fun h => (by cases h)⟩
  exact (exec_along DrvSession.step_inv hinit hok hrun).agrees

/-- Every request is answered, and the daemon resolves `id`. -/
def resolvingPath (id : Int) : Path :=
  { quietPath with world := { deliveringWorld [] with nl80211IdGet := (.success, id) } }

def driverEvent (nlId : UInt32) : DwpaldDriverNlEvent := ⟨nlId, some 0x500⟩

/-- The attach of the driver to the events `nlIds`, at a daemon that resolves `nl80211Id`. -/
def attachTheDriver (nl80211Id : Int) (nlIds : List UInt32) (id : UInt32) : DrvCall :=
  .attach (resolvingPath nl80211Id) (some (nlIds.map driverEvent)) none id

theorem undistorted_first {s : DrvSession} {nl80211Id : Int} {nlIds : List UInt32} {id : UInt32}
    (hnone : s.conn.drvNlAttch = none) (hsucceeded : s.succeeded = false)
    (hid : 0 ≤ nl80211Id ∧ nl80211Id < 256) :
    s.Undistorted (attachTheDriver nl80211Id nlIds id) := by
  have hpath : ∀ p drvEvents, s.attachRequest (attachTheDriver nl80211Id nlIds id) =
      some (p, drvEvents) → p = resolvingPath nl80211Id := by
    intro p drvEvents h
    simp only [attachTheDriver, DrvSession.attachRequest] at h
    split at h
    · exact (congrArg Prod.fst (Option.some.inj h)).symm
    · cases h
  refine ⟨?_, ?_, ?_⟩
  · intro p drvEvents hrequest _ _
    rw [hpath p drvEvents hrequest]
    exact hid
  · exact fun _ _ _ _ _ => .inl hsucceeded
  · intro p drvEvents hrequest
    simp only [attachTheDriver, DrvSession.updateRequest] at hrequest
    split at hrequest
    · next hupdate =>
      have hattached := DrvSession.isSome_of_updateEvent hupdate
      rw [hnone] at hattached
      cases hattached
    · cases hrequest

/-- Two connections one after the other. -/
def twoConnections : List DrvCall :=
  [attachTheDriver 28 [0x67] 1, .disconnect, attachTheDriver 29 [0x67] 1]

theorem nl80211IdAgreement_twoConnections :
    ∃ s, exec DrvSession.step (DrvSession.connected startedDwpald) twoConnections = some s ∧
      s.Agrees := by
  refine ⟨_, rfl, nl80211IdAgreement startedDwpald twoConnections _ rfl ?_⟩
  refine ⟨undistorted_first rfl rfl (by decide), ⟨?_, ?_, ?_⟩,
    undistorted_first rfl rfl (by decide), trivial⟩
  · exact fun _ _ h => (by cases h)
  · exact fun _ _ h => (by cases h)
  · exact fun _ _ h => (by cases h)

/-- An id that a byte cannot hold. -/
def wideIdRun : List DrvCall := [attachTheDriver 256 [0x67] 1]

/-- An id that a byte can hold, and a second attach that brings another event. -/
def updatedEventsRun : List DrvCall := [attachTheDriver 28 [0x67] 1, attachTheDriver 28 [0x68] 2]

theorem step_attach {s : DrvSession} {p : Path} {driverEvents : Option (List DwpaldDriverNlEvent)}
    {nlEventCb : Option Clb} {id : UInt32} {ret : DwpaldRet} {conn : DwpaldConnection}
    {daemon : Dwpald} {resolved : Option Int}
    (hanswer : attachDriver (sendsTo p s.daemon s.conn.nl80211Id) s.daemon s.conn driverEvents
      nlEventCb id = (ret, conn, daemon))
    (hresolved : s.resolvedAfter (.attach p driverEvents nlEventCb id) = resolved) :
    s.step (.attach p driverEvents nlEventCb id) =
      some ⟨conn, daemon, s.succeeded || ret = .success, resolved⟩ := by
  simp only [DrvSession.step, hanswer, hresolved]

/-- The first attach, at a daemon that grants everything. -/
theorem step_first (nl80211Id : Int) :
    ∃ nlMan, AttachedTo nlMan (ifName dwpaldNlDrvIfname) 7 {0x67} ∧
      (DrvSession.connected startedDwpald).step (attachTheDriver nl80211Id [0x67] 1) =
        some ⟨⟨[], some ⟨[⟨0x67, [⟨some 0x500, 1⟩]⟩], []⟩, (UInt8.ofInt nl80211Id).toNat⟩,
          { startedDwpald with nlMan := nlMan }, true, some nl80211Id⟩ := by
  obtain ⟨ret, nlMan, hret, hsend, -, hyes⟩ := sendDrvNlAttach_spec (resolvingPath nl80211Id)
    startedDwpald (-1) [⟨0x67, [⟨some 0x500, 1⟩]⟩]
  have haccepted : DrvAccepted (resolvingPath nl80211Id) startedDwpald
      [⟨0x67, [⟨some 0x500, 1⟩]⟩] := ⟨by decide, .inr DwpalRet.noConfusion, rfl⟩
  obtain rfl := hret.mpr ⟨haccepted, rfl⟩
  have hattached := hyes haccepted
  rw [if_pos rfl] at hsend
  have hcopy : dwpaldCopyDriverEvents [] 1 [driverEvent 0x67] =
      (0, [⟨0x67, [⟨some 0x500, 1⟩]⟩]) := rfl
  have hdriver : attachDriver (sendsTo (resolvingPath nl80211Id) startedDwpald (-1)) startedDwpald
      ⟨[], none, -1⟩ (some [driverEvent 0x67]) none 1 =
        (.success, ⟨[], some ⟨[⟨0x67, [⟨some 0x500, 1⟩]⟩], []⟩, (UInt8.ofInt nl80211Id).toNat⟩,
          { startedDwpald with nlMan := nlMan }) := by
    have hrequest : driverRequest none (some [driverEvent 0x67]) 1 =
        some (.attach [⟨0x67, [⟨some 0x500, 1⟩]⟩]) := rfl
    simp only [attachDriver, hrequest, dwpaldNlDrvAttachWithId, hcopy, DrvSends.requests,
      DrvSends.send, sendsTo, hsend]
    rfl
  have hresolved : (DrvSession.connected startedDwpald).resolvedAfter
      (attachTheDriver nl80211Id [0x67] 1) = some nl80211Id := by
    have hrequest : (DrvSession.connected startedDwpald).attachRequest
        (attachTheDriver nl80211Id [0x67] 1) =
          some (resolvingPath nl80211Id, [⟨0x67, [⟨some 0x500, 1⟩]⟩]) := rfl
    rw [DrvSession.resolvedAfter, hrequest]
    exact if_pos haccepted
  refine ⟨nlMan, ?_, ?_⟩
  · have hnew : registeredNlIds startedDwpald.nlMan (ifName dwpaldNlDrvIfname) 7 = ∅ :=
      registeredNlIds_new (newStation_started 7) _
    have hids : {nlId | nlId ∈ localNlIds [⟨0x67, [⟨some 0x500, 1⟩]⟩]} = ({0x67} : Set UInt32) := by
      ext nlId
      simp [localNlIds]
    rw [← hids, ← Set.empty_union {nlId | nlId ∈ localNlIds _}, ← hnew]
    exact hattached
  · exact step_attach hdriver hresolved

/-- The second attach then sends an update, and takes 0 from its response. -/
theorem step_second {nlMan : IfaceManager DrvEvent Bool}
    (hattached : AttachedTo nlMan (ifName dwpaldNlDrvIfname) 7 {0x67}) (nl80211Id : Int) :
    ∃ s, DrvSession.step ⟨⟨[], some ⟨[⟨0x67, [⟨some 0x500, 1⟩]⟩], []⟩, nl80211Id⟩,
        { startedDwpald with nlMan := nlMan }, true, some nl80211Id⟩
          (attachTheDriver nl80211Id [0x68] 2) = some s ∧
      s.succeeded = true ∧ s.resolved = some nl80211Id ∧ s.conn.nl80211Id = 0 := by
  obtain ⟨ret, nlMan', hret, hsend⟩ := sendDrvNlUpdateEvent_spec (resolvingPath nl80211Id)
    { startedDwpald with nlMan := nlMan } nl80211Id
    [⟨0x68, [⟨some 0x500, 2⟩]⟩, ⟨0x67, [⟨some 0x500, 1⟩]⟩]
  obtain ⟨iface, hfind, -⟩ := hattached.attached
  have haccepted : UpdateAccepted { startedDwpald with nlMan := nlMan }
      [⟨0x68, [⟨some 0x500, 2⟩]⟩, ⟨0x67, [⟨some 0x500, 1⟩]⟩] :=
    ⟨by decide, fun hnone => (by cases hnone.symm.trans hfind)⟩
  obtain rfl := hret.mpr ⟨haccepted, rfl⟩
  rw [if_pos rfl] at hsend
  have hdriver : (attachDriver (sendsTo (resolvingPath nl80211Id)
      { startedDwpald with nlMan := nlMan } nl80211Id) { startedDwpald with nlMan := nlMan }
      ⟨[], some ⟨[⟨0x67, [⟨some 0x500, 1⟩]⟩], []⟩, nl80211Id⟩ (some [driverEvent 0x68]) none
        2).2.1.nl80211Id = 0 := by
    have hrequest : driverRequest (some ⟨[⟨0x67, [⟨some 0x500, 1⟩]⟩], []⟩) (some [driverEvent 0x68])
        2 = some (.updateEvent [⟨0x68, [⟨some 0x500, 2⟩]⟩, ⟨0x67, [⟨some 0x500, 1⟩]⟩]) := rfl
    obtain ⟨-, -, hid⟩ := attachDriver_eq (sendsTo (resolvingPath nl80211Id)
      { startedDwpald with nlMan := nlMan } nl80211Id) { startedDwpald with nlMan := nlMan }
      ⟨[], some ⟨[⟨0x67, [⟨some 0x500, 1⟩]⟩], []⟩, nl80211Id⟩ (some [driverEvent 0x68]) none 2
    rw [hid, hrequest, Option.elim_some]
    simp only [DrvSends.send, sendsTo, hsend]
  exact ⟨_, rfl, rfl, rfl, hdriver⟩

/-- The client keeps 0 for the id 256, and for the id 28 after an update of its events. -/
theorem wideId_breaks_agreement :
    (∃ s, exec DrvSession.step (DrvSession.connected startedDwpald) wideIdRun = some s ∧
      ¬ s.Agrees) ∧
    ∃ s, exec DrvSession.step (DrvSession.connected startedDwpald) updatedEventsRun = some s ∧
      ¬ s.Agrees := by
  constructor
  · obtain ⟨nlMan, -, hstep⟩ := step_first 256
    refine ⟨_, by rw [wideIdRun, exec_cons, hstep]; rfl, fun h => ?_⟩
    have hagree : (256 : Int) = ((UInt8.ofInt 256).toNat : Int) := Option.some.inj (h rfl)
    exact absurd hagree (by decide)
  · obtain ⟨nlMan, hattached, hstep⟩ := step_first 28
    obtain ⟨s, hsecond, hsucceeded, hresolved, hid⟩ := step_second hattached 28
    refine ⟨s, ?_, fun h => ?_⟩
    · rw [updatedEventsRun, exec_cons, hstep, Option.bind_some, exec_cons]
      rw [show ((UInt8.ofInt 28).toNat : Int) = 28 from rfl, hsecond]
      rfl
    · have hagree := h hsucceeded
      rw [hresolved, hid] at hagree
      exact absurd hagree (by decide)

end Dwpal.Client
