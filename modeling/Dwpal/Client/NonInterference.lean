import Dwpal.Client.HostapAttach
import Dwpal.Lib.Machine

/-! Attach ids do not interfere: in runs of attaches and detaches with ids, the callbacks that are
registered on an interface are those that the ids attached have asked for. -/

namespace Dwpal.Client

open Ipc Daemon Machine EventKind

/-- The callback `c` is registered to the op_code on the interface. -/
def RegisteredOn (attachments : List DwpaldHostapAttachment) (ifname opCode : List UInt8)
    (c : ClbId) : Prop :=
  ∃ hapAttch ∈ attachments, hapAttch.ifname.bytes = ifname ∧
    Registered OpCode.opCode hapAttch.hostapEvents opCode c

/-- A registration that an id has asked for. -/
structure Asked where
  ifname : List UInt8
  opCode : List UInt8
  clbId : ClbId
deriving DecidableEq

/-- The attachments of a client, and what every id has asked for since its last detach. -/
structure History where
  attachments : List DwpaldHostapAttachment
  asked : List Asked

inductive Call where
  | attachWithId (requests : Requests) (eventThread : Bool) (ifname : Option (List UInt8))
      (hostapEvents : Option (List DwpaldHostapEvent)) (failOnIfaceDown : Bool) (id : UInt32)
  | detachWithId (requests : Requests) (eventThread : Bool) (ifname : Option (List UInt8))
      (id : UInt32)

/-- What an attach that returns `ret` has asked for: nothing, if it has failed or, with the flag,
has been undone since the interface is down. -/
def askedBy (attachments : List DwpaldHostapAttachment) (ifname : List UInt8)
    (hostapEvents : List DwpaldHostapEvent) (failOnIfaceDown : Bool) (id : UInt32)
    (ret : DwpaldRet) : List Asked :=
  if AttachSucceeded attachments ifname failOnIfaceDown ret then
    hostapEvents.map fun event =>
      ⟨cstr ifname, hostapNaming.nameOf event, ⟨event.hapdClb, id⟩⟩
  else []

/-- One call. -/
def History.step (h : History) : Call → Option History
  | .attachWithId requests eventThread ifname hostapEvents failOnIfaceDown id =>
    (dwpaldHostapAttachWithId requests eventThread h.attachments ifname hostapEvents
      failOnIfaceDown id).map fun attached =>
        ⟨attached.attachments, askedBy h.attachments (ifname.getD []) (hostapEvents.getD [])
          failOnIfaceDown id attached.ret ++ h.asked⟩
  | .detachWithId requests eventThread ifname id =>
    let (ret, attachments, _) :=
      dwpaldHostapDetachWithId requests eventThread h.attachments ifname id
    some ⟨attachments, if ret = .success then
      h.asked.filter fun x => ¬ (x.ifname = cstr (ifname.getD []) ∧ x.clbId.id = id)
      else h.asked⟩

/-- The registrations of every interface are what the ids have asked for. -/
def History.Law (h : History) : Prop :=
  ∀ ifname opCode c, RegisteredOn h.attachments ifname opCode c ↔ ⟨ifname, opCode, c⟩ ∈ h.asked

/-- Every request to the daemon succeeds. -/
structure Requests.Successful (requests : Requests) : Prop where
  attach : ∀ hapAttach, (requests.sendHostapAttach hapAttach).1 = .success
  updateEvent : ∀ ifname hapEvents, requests.sendHostapUpdateEvent ifname hapEvents = .success
  detach : ∀ ifname, requests.sendHostapDetach ifname = .success

/-- The daemon answers all requests of the call with success. -/
def Call.Successful : Call → Prop
  | .attachWithId requests .. | .detachWithId requests .. => requests.Successful

/-- `id` has nothing registered. -/
def Fresh (hapEvents : List DwpaldHostapEventWithId) (id : UInt32) : Prop :=
  ∀ opCode c, Registered OpCode.opCode hapEvents opCode c → c.id ≠ id

/-- The call does not meet an attach of another id: its interface has a name that fits, and if it is
attached, every round of the merge finds the entry of its op_code or none, the callback only if it
is registered with this id, and bad arguments only if this id has nothing registered. -/
def History.Undisturbed (h : History) : Call → Prop
  | .attachWithId _ eventThread ifname hostapEvents _ id =>
    eventThread = false → id ≠ defaultAttachId → ∀ name events, ifname = some name →
      hostapEvents = some events → (cstr name).length ≤ ifnamsiz ∧
        ∀ hapAttch, h.attachments.find? (·.named name) = some hapAttch →
          hostapNaming.Rounds id (hostapNaming.Owned id (Fresh hapAttch.hostapEvents id)) false
            hapAttch.hostapEvents events
  | .detachWithId .. => True

/-! The attachment that a name finds. -/

variable {attachments : List DwpaldHostapAttachment} {hapAttch : DwpaldHostapAttachment}
  {ifname : List UInt8}

/-- No two attachments have one name. -/
def Distinct (attachments : List DwpaldHostapAttachment) : Prop :=
  (attachments.map fun hapAttch => hapAttch.ifname.bytes).Nodup

/-- What is registered on the interface of an attachment. -/
theorem registeredOn_found (hdistinct : Distinct attachments)
    (hfind : attachments.find? (·.named ifname) = some hapAttch) (opCode : List UInt8)
    (c : ClbId) :
    RegisteredOn attachments (cstr ifname) opCode c ↔
      Registered OpCode.opCode hapAttch.hostapEvents opCode c := by
  have hmem := List.mem_of_find?_eq_some hfind
  have hbytes : hapAttch.ifname.bytes = cstr ifname :=
    named_iff_bytes.mp (List.find?_some hfind)
  constructor
  · rintro ⟨other, hother, hname, hreg⟩
    rwa [← List.inj_on_of_nodup_map hdistinct hother hmem (hname.trans hbytes.symm)]
  · exact fun hreg => ⟨hapAttch, hmem, hbytes, hreg⟩

theorem registeredOn_append {attachments' : List DwpaldHostapAttachment} {n opCode : List UInt8}
    {c : ClbId} :
    RegisteredOn (attachments ++ attachments') n opCode c ↔
      RegisteredOn attachments n opCode c ∨ RegisteredOn attachments' n opCode c := by
  simp [RegisteredOn, or_and_right, exists_or]

/-- A change of the attachment that is found concerns its interface alone. -/
theorem changeAttachment_spec (change : DwpaldHostapAttachment → Option DwpaldHostapAttachment)
    (hdistinct : Distinct attachments)
    (hfind : attachments.find? (·.named ifname) = some hapAttch)
    (hname : ∀ changed ∈ change hapAttch, changed.ifname = hapAttch.ifname) :
    Distinct (changeAttachment ifname change attachments) ∧
      ∀ n opCode c, RegisteredOn (changeAttachment ifname change attachments) n opCode c ↔
        (n = cstr ifname ∧ ∃ changed ∈ change hapAttch,
          Registered OpCode.opCode changed.hostapEvents opCode c) ∨
        (n ≠ cstr ifname ∧ RegisteredOn attachments n opCode c) := by
  obtain ⟨pre, post, rfl, hbytes, hchange⟩ := changeAttachment_eq change hfind
  have hsub : (((change hapAttch).toList).map fun other => other.ifname.bytes).Sublist
      [hapAttch.ifname.bytes] := by
    cases hnew : change hapAttch with
    | none => simp
    | some changed => simp [hname changed hnew]
  have hnot : ∀ n opCode c, n = cstr ifname → ¬ RegisteredOn (pre ++ post) n opCode c := by
    rintro n opCode c rfl ⟨other, hother, heq, -⟩
    rw [Distinct, List.map_append, List.map_cons, List.nodup_middle, List.nodup_cons, hbytes,
      ← List.map_append] at hdistinct
    exact hdistinct.1 (heq ▸ List.mem_map_of_mem hother)
  rw [hchange]
  constructor
  · refine List.Nodup.sublist ?_ hdistinct
    simp only [List.map_append, List.map_cons, List.append_assoc]
    exact (List.Sublist.refl _).append (hsub.append (List.Sublist.refl _))
  · intro n opCode c
    have hnew : RegisteredOn (change hapAttch).toList n opCode c ↔ n = cstr ifname ∧
        ∃ changed ∈ change hapAttch, Registered OpCode.opCode changed.hostapEvents opCode c := by
      constructor
      · rintro ⟨changed, hmem, rfl, hreg⟩
        have hmem' := Option.mem_toList.mp hmem
        exact ⟨(hname changed hmem') ▸ hbytes, changed, hmem', hreg⟩
      · rintro ⟨rfl, changed, hmem, hreg⟩
        exact ⟨changed, Option.mem_toList.mpr hmem, (hname changed hmem) ▸ hbytes, hreg⟩
    rw [registeredOn_append, registeredOn_append, hnew]
    by_cases hn : n = cstr ifname
    · have hnone := hnot n opCode c hn
      rw [registeredOn_append, not_or] at hnone
      simp only [hn, ne_eq, not_true_eq_false, false_and, or_false, true_and] at hnone ⊢
      simp [hnone]
    · have hne : ¬ RegisteredOn [hapAttch] n opCode c := by
        rintro ⟨other, hother, heq, -⟩
        rw [List.mem_singleton.mp hother] at heq
        exact hn (heq.symm.trans hbytes)
      rw [← List.singleton_append (l := post), registeredOn_append, registeredOn_append]
      simp [hn, hne]

/-- The registrations of the attachment that is found, and those of the other interfaces. -/
theorem registeredOn_split (hdistinct : Distinct attachments)
    (hfind : attachments.find? (·.named ifname) = some hapAttch) (n opCode : List UInt8)
    (c : ClbId) :
    RegisteredOn attachments n opCode c ↔
      (n = cstr ifname ∧ Registered OpCode.opCode hapAttch.hostapEvents opCode c) ∨
      (n ≠ cstr ifname ∧ RegisteredOn attachments n opCode c) := by
  by_cases hn : n = cstr ifname
  · rw [hn, registeredOn_found hdistinct hfind]
    simp
  · simp [hn]

theorem setHostapEvents_spec (hdistinct : Distinct attachments)
    (hfind : attachments.find? (·.named ifname) = some hapAttch)
    (events : List DwpaldHostapEventWithId) :
    Distinct (setHostapEvents attachments ifname events) ∧
      ∀ n opCode c, RegisteredOn (setHostapEvents attachments ifname events) n opCode c ↔
        (n = cstr ifname ∧ Registered OpCode.opCode events opCode c) ∨
        (n ≠ cstr ifname ∧ RegisteredOn attachments n opCode c) := by
  obtain ⟨hdistinct', hreg⟩ := changeAttachment_spec
    (fun hapAttch => some { hapAttch with hostapEvents := events }) hdistinct hfind (by simp)
  refine ⟨hdistinct', fun n opCode c => ?_⟩
  rw [setHostapEvents, hreg]
  simp

/-! One call. -/

/-- What is registered on the interfaces is what it was and, for the interface `ifname` and the id
`id`, the events. -/
def Gained (attachments attachments' : List DwpaldHostapAttachment) (ifname : List UInt8)
    (id : UInt32) (events : List DwpaldHostapEvent) : Prop :=
  ∀ n opCode c, RegisteredOn attachments' n opCode c ↔ RegisteredOn attachments n opCode c ∨
    n = cstr ifname ∧ ∃ event ∈ events,
      opCode = hostapNaming.nameOf event ∧ c = ⟨event.hapdClb, id⟩

theorem Gained.refl {id : UInt32} : Gained attachments attachments ifname id [] := by
  intro n opCode c
  simp

/-- An attach keeps the law if it has gained what it has asked for. -/
theorem Gained.law {attachments' : List DwpaldHostapAttachment} {asked : List Asked} {id : UInt32}
    {events : List DwpaldHostapEvent} (hgained : Gained attachments attachments' ifname id events)
    (hlaw : History.Law ⟨attachments, asked⟩) :
    History.Law ⟨attachments', events.map (fun event =>
      ⟨cstr ifname, hostapNaming.nameOf event, ⟨event.hapdClb, id⟩⟩) ++ asked⟩ := by
  intro n opCode c
  have hlaw' := hlaw n opCode c
  simp only at hlaw' ⊢
  rw [hgained n opCode c, hlaw', List.mem_append, List.mem_map, or_comm]
  refine or_congr_left ?_
  constructor
  · rintro ⟨rfl, event, hevent, rfl, rfl⟩
    exact ⟨event, hevent, rfl⟩
  · rintro ⟨event, hevent, heq⟩
    cases heq
    exact ⟨rfl, event, hevent, rfl, rfl⟩

/-- The outcome of an attach: the interface has gained what was asked for, or the attach tells of
its failure or of its undoing and nothing is gained. -/
def Outcome (attachments : List DwpaldHostapAttachment) (attached : Attached) (ifname : List UInt8)
    (failOnIfaceDown : Bool) (id : UInt32) (events : List DwpaldHostapEvent) : Prop :=
  Distinct attached.attachments ∧
    Gained attachments attached.attachments ifname id
      (if AttachSucceeded attachments ifname failOnIfaceDown attached.ret then events else [])

/-- An attach of an interface that is attached. -/
theorem attachAgain_outcome {requests : Requests} {hostapEvents : List DwpaldHostapEvent}
    {id : UInt32} {attached : Attached} {failOnIfaceDown : Bool} (hok : requests.Successful)
    (hdistinct : Distinct attachments)
    (hfind : attachments.find? (·.named ifname) = some hapAttch) (hid : id ≠ defaultAttachId)
    (hrounds : hostapNaming.Rounds id (hostapNaming.Owned id (Fresh hapAttch.hostapEvents id)) false
      hapAttch.hostapEvents hostapEvents)
    (hattach : attachAgain requests attachments hapAttch ifname hostapEvents id = some attached) :
    Outcome attachments attached ifname failOnIfaceDown id hostapEvents := by
  rw [attachAgain, if_neg hid, Option.map_eq_some_iff] at hattach
  obtain ⟨⟨err, events⟩, hadd, rfl⟩ := hattach
  have hmerged := addEventsLoop_merged rfl hrounds hadd
  obtain ⟨hdistinct', hreg⟩ := setHostapEvents_spec hdistinct hfind events
  simp only [Outcome, hok.updateEvent, ne_eq, not_true_eq_false, if_false,
    apply_ite Attached.attachments, apply_ite Attached.ret, ite_self]
  rcases hmerged with ⟨rfl, hadded⟩ | ⟨herr, hfresh, hkept⟩
  · simp only [not_true_eq_false, if_false]
    refine ⟨hdistinct', fun n opCode c => ?_⟩
    have hret : (if hapAttch.state = interfaceDwpalStateConnected then DwpaldRet.success
        else .dwpalIfaceIsDown) = .success ∨ (if hapAttch.state = interfaceDwpalStateConnected
        then DwpaldRet.success else .dwpalIfaceIsDown) = .dwpalIfaceIsDown := by
      split <;> simp
    have hin : AttachSucceeded attachments ifname failOnIfaceDown
        (if hapAttch.state = interfaceDwpalStateConnected then .success else .dwpalIfaceIsDown) :=
      hret.imp_right fun h => ⟨h, Or.inr (by simp [hfind])⟩
    rw [if_pos hin]
    rw [hreg, registeredOn_split hdistinct hfind n,
      show Registered OpCode.opCode events opCode c ↔ _ from hadded opCode c]
    by_cases hn : n = cstr ifname
    · simp only [hn, true_and, ne_eq, not_true_eq_false, false_and, or_false]
      rfl
    · simp [hn]
  · simp only [herr, not_false_eq_true, if_true]
    refine ⟨hdistinct', fun n opCode c => ?_⟩
    rw [if_neg (by simp [AttachSucceeded])]
    rw [hreg, registeredOn_split hdistinct hfind n]
    have hsame : Registered OpCode.opCode events opCode c ↔
        Registered OpCode.opCode hapAttch.hostapEvents opCode c :=
      (hkept opCode c).trans (and_iff_left_of_imp (hfresh opCode c))
    rw [hsame]
    by_cases hn : n = cstr ifname <;> simp [hn]

/-- The first attach of an interface. -/
theorem attachFirst_outcome {requests : Requests} {hostapEvents : List DwpaldHostapEvent}
    {id : UInt32} {commonEvent : Option Clb} {failOnIfaceDown : Bool} (hok : requests.Successful)
    (hdistinct : Distinct attachments) (hfind : attachments.find? (·.named ifname) = none)
    (hlen : (cstr ifname).length ≤ ifnamsiz) :
    Outcome attachments (attachFirst requests attachments ifname hostapEvents commonEvent
      failOnIfaceDown id) ifname failOnIfaceDown id hostapEvents := by
  have hrefused : ∀ (ret : DwpaldRet) (sent : List HostapRequest), ret ≠ .success →
      (ret = .dwpalIfaceIsDown → failOnIfaceDown) →
      Outcome attachments ⟨ret, attachments, false, sent⟩ ifname failOnIfaceDown id
        hostapEvents := by
    intro ret sent hret hdown
    refine ⟨hdistinct, ?_⟩
    have hno : ¬ AttachSucceeded attachments ifname failOnIfaceDown ret := by
      rintro (h | ⟨h, h' | h'⟩)
      · exact hret h
      · rw [hdown h] at h'
        cases h'
      · rw [hfind] at h'
        cases h'
    rw [if_neg hno]
    exact Gained.refl
  have hname : (ifName ifname).bytes = cstr ifname := by
    rw [ifName, CString.copyFrom_bytes_eq (by decide) (by decide), List.take_of_length_le hlen]
  unfold attachFirst
  split
  · next events hcopy =>
    -- the new attachment, whatever its state
    have hgained : ∀ state, Distinct (attachments ++
          [{ newAttachment ifname commonEvent events with state := state }]) ∧
        Gained attachments (attachments ++
          [{ newAttachment ifname commonEvent events with state := state }]) ifname id
          hostapEvents := by
      intro state
      constructor
      · rw [Distinct, List.map_append, List.nodup_append]
        refine ⟨hdistinct, List.nodup_singleton _, ?_⟩
        rintro x hx y hy rfl
        obtain ⟨other, hother, rfl⟩ := List.mem_map.mp hx
        have hne := List.find?_eq_none.mp hfind other hother
        rw [List.map_singleton, List.mem_singleton] at hy
        exact hne (named_iff_bytes.mpr (hy.trans hname))
      · intro n opCode c
        rw [registeredOn_append]
        refine or_congr_right ?_
        have hreg := EventKind.copyEvents_registered hostapNaming hcopy opCode c
        constructor
        · rintro ⟨other, hother, rfl, hc⟩
          rw [List.mem_singleton.mp hother] at hc ⊢
          exact ⟨hname, (hreg.mp hc).resolve_left not_registered_nil⟩
        · rintro ⟨rfl, hevent⟩
          exact ⟨_, List.mem_singleton_self _, hname, hreg.mpr (Or.inr hevent)⟩
    obtain ⟨state, hreply⟩ : ∃ state,
        requests.sendHostapAttach (newAttachment ifname commonEvent events) = (.success, state) :=
      ⟨_, Prod.ext (hok.attach _) rfl⟩
    obtain ⟨hdistinct', hgained⟩ := hgained state
    simp only [hreply]
    split_ifs with hstate hfail
    · exact hrefused _ _ (by simp) fun _ => hfail
    · refine ⟨hdistinct', ?_⟩
      rw [if_pos (show AttachSucceeded _ _ _ _ from Or.inr ⟨rfl, Or.inl (by simpa using hfail)⟩)]
      exact hgained
    · refine ⟨hdistinct', ?_⟩
      rw [if_pos (show AttachSucceeded _ _ _ _ from Or.inl rfl)]
      exact hgained
  · exact hrefused _ _ (by simp) (by simp)

/-- A detach withdraws what the id has registered on the interface. -/
theorem detach_spec (requests : Requests) (ifname : List UInt8) (hdistinct : Distinct attachments)
    (id : UInt32) :
    Distinct (dwpaldHostapDetachWithId requests false attachments (some ifname) id).2.1 ∧
      ∀ n opCode c, RegisteredOn
        (dwpaldHostapDetachWithId requests false attachments (some ifname) id).2.1 n opCode c ↔
          RegisteredOn attachments n opCode c ∧ ¬ (n = cstr ifname ∧ c.id = id) := by
  simp only [dwpaldHostapDetachWithId, if_neg Bool.false_ne_true]
  cases hfind : attachments.find? (·.named ifname) with
  | none =>
    refine ⟨hdistinct, fun n opCode c => (and_iff_left_of_imp ?_).symm⟩
    rintro ⟨hapAttch, hmem, hname, -⟩ ⟨hn, -⟩
    exact List.find?_eq_none.mp hfind hapAttch hmem (named_iff_bytes.mpr (hname.trans hn))
  | some hapAttch =>
    have hfreed : ∀ opCode c, Registered OpCode.opCode
        (dwpaldFreeHostapEventsWithId hapAttch.hostapEvents id) opCode c ↔
          Registered OpCode.opCode hapAttch.hostapEvents opCode c ∧ c.id ≠ id :=
      fun opCode c => registered_freeEventsWithId
    have hkept : ∀ n opCode c, RegisteredOn (setHostapEvents attachments ifname
        (dwpaldFreeHostapEventsWithId hapAttch.hostapEvents id)) n opCode c ↔
          RegisteredOn attachments n opCode c ∧ ¬ (n = cstr ifname ∧ c.id = id) := by
      intro n opCode c
      rw [(setHostapEvents_spec hdistinct hfind _).2, hfreed]
      by_cases hn : n = cstr ifname
      · subst hn
        simp [registeredOn_found hdistinct hfind]
      · simp [hn]
    have hremoved : (dwpaldFreeHostapEventsWithId hapAttch.hostapEvents id).length = 0 →
        ∀ n opCode c, RegisteredOn (changeAttachment ifname (fun _ => none) attachments) n
          opCode c ↔ RegisteredOn attachments n opCode c ∧ ¬ (n = cstr ifname ∧ c.id = id) := by
      intro hempty n opCode c
      have hnone : Registered OpCode.opCode hapAttch.hostapEvents opCode c → c.id = id := by
        intro hreg
        by_contra hne
        have hfree := (hfreed opCode c).mpr ⟨hreg, hne⟩
        rw [List.length_eq_zero_iff.mp hempty] at hfree
        exact not_registered_nil hfree
      rw [(changeAttachment_spec (fun _ => none) hdistinct hfind (by simp)).2]
      by_cases hn : n = cstr ifname
      · subst hn
        simpa [registeredOn_found hdistinct hfind] using hnone
      · simp [hn]
    have hd := (setHostapEvents_spec hdistinct hfind
      (dwpaldFreeHostapEventsWithId hapAttch.hostapEvents id)).1
    by_cases hsame : (dwpaldFreeHostapEventsWithId hapAttch.hostapEvents id).length =
        hapAttch.hostapEvents.length
    · simp only [if_pos hsame]
      exact ⟨hd, hkept⟩
    by_cases hempty : (dwpaldFreeHostapEventsWithId hapAttch.hostapEvents id).length = 0
    · simp only [if_neg hsame, if_pos hempty]
      exact ⟨(changeAttachment_spec (fun _ => none) hdistinct hfind (by simp)).1, hremoved hempty⟩
    · simp only [if_neg hsame, if_neg hempty]
      exact ⟨hd, hkept⟩

theorem detach_ret {requests : Requests} (hok : requests.Successful) (id : UInt32) :
    (dwpaldHostapDetachWithId requests false attachments (some ifname) id).1 = .success := by
  simp only [dwpaldHostapDetachWithId, if_neg Bool.false_ne_true]
  cases attachments.find? (·.named ifname) with
  | none => rfl
  | some hapAttch =>
    simp only [hok.updateEvent, hok.detach]
    split_ifs <;> rfl

/-! Runs of calls. -/

/-- The invariant of the runs. -/
def History.Inv (h : History) : Prop := Distinct h.attachments ∧ h.Law

/-- An attach that is not made in the thread of the events, with an id and a name. -/
theorem attach_outcome {requests : Requests} {ifname : Option (List UInt8)}
    {hostapEvents : Option (List DwpaldHostapEvent)} {eventThread failOnIfaceDown : Bool}
    {id : UInt32} {asked : List Asked} {attached : Attached} (hdistinct : Distinct attachments)
    (hok : requests.Successful)
    (hundisturbed : History.Undisturbed ⟨attachments, asked⟩
      (.attachWithId requests eventThread ifname hostapEvents failOnIfaceDown id))
    (hattach : dwpaldHostapAttachWithId requests eventThread attachments ifname hostapEvents
      failOnIfaceDown id = some attached) :
    Outcome attachments attached (ifname.getD []) failOnIfaceDown id (hostapEvents.getD []) := by
  have hrefused : ∀ ret : DwpaldRet, ret ≠ .success → ret ≠ .dwpalIfaceIsDown →
      Outcome attachments ⟨ret, attachments, false, []⟩ (ifname.getD []) failOnIfaceDown id
        (hostapEvents.getD []) := by
    intro ret hret hdown
    refine ⟨hdistinct, ?_⟩
    rw [if_neg (by rintro (h | ⟨h, -⟩) <;> contradiction)]
    exact Gained.refl
  simp only [dwpaldHostapAttachWithId] at hattach
  by_cases hid : id = defaultAttachId
  · rw [if_pos hid] at hattach
    cases hattach
    exact hrefused _ (by simp) (by simp)
  rw [if_neg hid] at hattach
  cases ifname with
  | none =>
    cases hattach
    exact hrefused _ (by simp) (by simp)
  | some name =>
    cases hostapEvents with
    | none =>
      cases hattach
      exact hrefused _ (by simp) (by simp)
    | some events =>
      simp only [dwpaldHostapAttachExWithId] at hattach
      cases eventThread with
      | true =>
        cases hattach
        exact hrefused _ (by simp) (by simp)
      | false =>
        obtain ⟨hlen, hrounds⟩ := hundisturbed rfl hid name events rfl rfl
        rw [if_neg Bool.false_ne_true] at hattach
        cases hfind : attachments.find? (·.named name) with
        | some hapAttch =>
          rw [hfind] at hattach
          exact attachAgain_outcome hok hdistinct hfind hid (hrounds hapAttch hfind) hattach
        | none =>
          rw [hfind] at hattach
          cases hattach
          exact attachFirst_outcome hok hdistinct hfind hlen

theorem step_inv {h h' : History} {call : Call} (hinv : h.Inv)
    (hok : call.Successful ∧ h.Undisturbed call) (hstep : h.step call = some h') : h'.Inv := by
  obtain ⟨attachments, asked⟩ := h
  obtain ⟨hdistinct, hlaw⟩ := hinv
  obtain ⟨hok, hundisturbed⟩ := hok
  cases call with
  | attachWithId requests eventThread ifname hostapEvents failOnIfaceDown id =>
    simp only [History.step, Option.map_eq_some_iff] at hstep
    obtain ⟨attached, hattach, rfl⟩ := hstep
    obtain ⟨hdistinct', hgained⟩ := attach_outcome hdistinct hok hundisturbed hattach
    refine ⟨hdistinct', ?_⟩
    rw [askedBy]
    split at hgained
    · next hasked =>
      rw [if_pos hasked]
      exact hgained.law hlaw
    · next hasked =>
      rw [if_neg hasked]
      exact hgained.law hlaw
  | detachWithId requests eventThread ifname id =>
    simp only [History.step, Option.some.injEq] at hstep
    subst hstep
    cases ifname with
    | none => exact ⟨hdistinct, hlaw⟩
    | some name =>
      cases eventThread with
      | true => exact ⟨hdistinct, hlaw⟩
      | false =>
        obtain ⟨hdistinct', hreg⟩ := detach_spec requests name hdistinct id
        refine ⟨hdistinct', fun n opCode c => ?_⟩
        have hlaw' := hlaw n opCode c
        simp only [detach_ret hok, if_true, Option.getD_some] at hlaw' ⊢
        rw [hreg, hlaw', List.mem_filter, decide_eq_true_iff]

/-- In every run of attaches and detaches with ids, of which the daemon serves every request and
which do not meet an attach of another id, the callbacks registered on every interface are those
that the ids have asked for since their last detach. -/
theorem attachIdsDoNotInterfere (calls : List Call) (h : History)
    (hrun : exec History.step ⟨[], []⟩ calls = some h)
    (hok : Along History.step (fun h call => call.Successful ∧ h.Undisturbed call) ⟨[], []⟩ calls) :
    h.Law := by
  have hinit : History.Inv ⟨[], []⟩ := ⟨List.nodup_nil, by simp [History.Law, RegisteredOn]⟩
  exact (exec_along step_inv hinit hok hrun).2

theorem servedRequests_successful : servedRequests.Successful :=
  ⟨fun _ => rfl, fun _ _ => rfl, fun _ => rfl⟩

def attachApEnabled (clb : Clb) (id : UInt32) : Call :=
  .attachWithId servedRequests false (some (ascii "wlan0"))
    (some [Request.event ⟨ascii "AP-ENABLED", clb, apEnabled_pos, apEnabled_lt⟩]) false id

def detachWlan0 (id : UInt32) : Call :=
  .detachWithId servedRequests false (some (ascii "wlan0")) id

def twoCallbacksRun : List Call :=
  [attachApEnabled 0x400 1, attachApEnabled 0x500 2, detachWlan0 1]

theorem attachIdsDoNotInterfere_twoCallbacks :
    ∃ h, exec History.step ⟨[], []⟩ twoCallbacksRun = some h ∧ h.Law := by
  refine ⟨_, rfl, attachIdsDoNotInterfere twoCallbacksRun _ rfl ?_⟩
  refine ⟨⟨servedRequests_successful, ?_⟩, ⟨servedRequests_successful, ?_⟩,
    ⟨servedRequests_successful, trivial⟩, trivial⟩
  · intro _ _ name events hname hevents
    cases hname
    exact ⟨by decide, fun hapAttch hfind => by cases hfind⟩
  · intro _ _ name events hname hevents
    cases hname
    cases hevents
    refine ⟨by decide, fun hapAttch hfind => ?_⟩
    cases hfind
    refine ⟨⟨?_, ?_, ?_⟩, trivial⟩
    · intro known hknown
      cases hknown
      rfl
    · intro known hknown hthere
      cases hknown
      exact absurd hthere (by decide)
    · intro hnone
      cases hnone

/-- Two ids register one callback, and the detach of the first one leaves nothing of it. -/
def sharedCallbackRun : List Call :=
  [attachApEnabled 0x400 1, attachApEnabled 0x400 2, detachWlan0 1]

theorem sharedCallback_breaks_law :
    (∀ call ∈ sharedCallbackRun, call.Successful) ∧
      ∃ h, exec History.step ⟨[], []⟩ sharedCallbackRun = some h ∧ ¬ h.Law := by
  constructor
  · simp [sharedCallbackRun, attachApEnabled, detachWlan0, Call.Successful,
      servedRequests_successful]
  · refine ⟨_, rfl, fun hlaw => ?_⟩
    have hasked := (hlaw (ascii "wlan0") (ascii "AP-ENABLED") ⟨some 0x400, 2⟩).mpr (by decide)
    obtain ⟨hapAttch, hmem, -⟩ := hasked
    exact absurd hmem List.not_mem_nil

end Dwpal.Client
