import Dwpal.Ipc.Msg
import Dwpal.Serializer.Payload

/-! `wave_ipcc_emulate_event` of `wv_ipc/wave_ipc_client.c`: an event message is handed to the
events serializer of the listener, or to the event callback where there is none, and is put back
into the pool once. -/

namespace Dwpal.Ipc

open Dwpal.Machine Dwpal.Serializer Dwpal.Serializer.WorkSerializer

inductive WvIpcSyncMode where
  | sync
  | async
deriving DecidableEq, Repr

/-- `WAVE_IPC_EVENT_TAKE_OWNERSHIP`. -/
def waveIpcEventTakeOwnership : Int := 0x8000

/-- The listener of the handle: none, one with an events serializer whose submission of the message
returns `res`, or one without, whose event callback returns `clbRet`. -/
inductive EventPath where
  | noListener
  | serialized (res : Int)
  | direct (clbRet : Int)
deriving DecidableEq, Repr

/-- `wave_ipcc_emulate_event` for a message that is not `NULL`: its return value, and how often it
calls `wave_ipc_msg_put` itself. -/
def waveIpccEmulateEvent (mode : WvIpcSyncMode) : EventPath → WvIpcRet × Nat
  | .noListener => (.error, 1)
  | .serialized res => if res ≠ 0 then (.error, 1) else (.success, 0)
  | .direct clbRet =>
    if mode ≠ .sync then (.error, 1)
    else if clbRet ≠ waveIpcEventTakeOwnership then (.success, 1)
    else (.success, 0)

/-- The operations of the events serializer that `wave_ipcc_start_listener` creates:
`_serialized_event_work_free` puts the message of a work back. -/
def eventsWorkOps : List WorkOps := [{ hasFreeFunc := true, cmpFunc := none }]

/-- In the states of an events serializer, the message is released exactly once: for a submission
whose work is `p` by the serializer or by `wave_ipcc_emulate_event`, once that call has returned an
error or the work was executed or stopped, and never twice; for a submission that was refused before
it had a work, and for the listeners without an events serializer, by `wave_ipcc_emulate_event`,
unless the callback took the message. -/
def EmulatedOnce (s : WorkSerializer) : Prop :=
  (∀ mode, ∀ p < s.next, (s.work p).id = 0 → ∀ r, (s.heap p).ret = some r →
    (waveIpccEmulateEvent mode (.serialized r)).2 + (s.heap p).freeFuncs ≤ 1 ∧
      ((waveIpccEmulateEvent mode (.serialized r)).1 ≠ .success ∨ (s.heap p).settled = true →
        (waveIpccEmulateEvent mode (.serialized r)).2 + (s.heap p).freeFuncs = 1)) ∧
  (∀ mode, waveIpccEmulateEvent mode (.serialized 1) = (.error, 1)) ∧
  (∀ mode, waveIpccEmulateEvent mode .noListener = (.error, 1)) ∧
  (∀ mode clbRet, (waveIpccEmulateEvent mode (.direct clbRet)).2 =
    if mode = .sync ∧ clbRet = waveIpcEventTakeOwnership then 0 else 1)

/-- A submission that returns 1 before it has a work leaves the serializer as it was. -/
def RefusedUntouched (s : WorkSerializer) : Prop :=
  (∀ t id obj ctx tmo m, s.CanCall t → serializerExecWork s t id obj ctx tmo m = none →
    step s (.execWork t id obj ctx tmo m) = some s) ∧
  (∀ t id obj ctx m, s.CanCall t → serializerExecWorkAsync s t id obj ctx m = none →
    step s (.execWorkAsync t id obj ctx m) = some s) ∧
  (∀ t id obj ctx secs msecs m, s.CanCall t →
    serializerAddDelayedWork s t id obj ctx secs msecs m = none →
    step s (.addDelayedWork t id obj ctx secs msecs m) = some s)

theorem refusedUntouched (s : WorkSerializer) : RefusedUntouched s := by
  refine ⟨fun t id obj ctx tmo m hcan h => ?_, fun t id obj ctx m hcan h => ?_,
    fun t id obj ctx secs msecs m hcan h => ?_⟩
  all_goals
    rw [step, if_pos hcan, h]
    rfl

theorem emulatedOnce_of_payloadLaw {s : WorkSerializer} (hops : s.ops = eventsWorkOps)
    (h : s.PayloadLaw) : EmulatedOnce s := by
  refine ⟨fun mode p hp hid r hr => ?_, fun _ => rfl, fun _ => rfl, fun mode clbRet => ?_⟩
  · obtain ⟨hfail, hdone⟩ := h p hp r hr
    have howed : s.owedFreeFuncs p = 1 := by
      simp [owedFreeFuncs, hasFreeFunc, hops, hid, eventsWorkOps]
    by_cases hr0 : r = 0
    · obtain ⟨hle, hset⟩ := hdone hr0
      simp only [waveIpccEmulateEvent, hr0]
      exact ⟨by simpa using hle, fun hor => by simpa [howed] using hset (by simpa using hor)⟩
    · simp [waveIpccEmulateEvent, hr0, hfail hr0]
  · cases mode <;> by_cases hc : clbRet = waveIpcEventTakeOwnership <;>
      simp [waveIpccEmulateEvent, hc]

/-- In every run of a serializer in which no synchronous work is stopped, and none is given up while
it is executed and its object is to be freed, a submission that returns non-zero leaves its object
to the caller, one that returns 0 releases it once, and an emulated event is released once. -/
theorem payloadOwnership (ops : List WorkOps) (startNow : Bool) (as : List Action)
    {s : WorkSerializer} (hok : Along step KeepsPayload (serializerCreate ops startNow) as)
    (hrun : exec step (serializerCreate ops startNow) as = some s) :
    s.PayloadLaw ∧ RefusedUntouched s ∧ (ops = eventsWorkOps → EmulatedOnce s) := by
  have hinv := run_inv ops startNow hok hrun
  exact ⟨hinv.payloadLaw, refusedUntouched s,
    fun hops => emulatedOnce_of_payloadLaw (hinv.ops.trans hops) hinv.payloadLaw⟩

/-- Thread 1 emulates an event, message 11, and the event is executed before thread 1 wakes up. -/
def emulateRun : List Action :=
  [.execWork 1 0 11 7 15000 true, .insert 1 true 0, .workerTakes, .workFuncReturns 0,
   .freeFuncReturns, .workDone, .callerWakes 1 .ok, .callerFinishes 1]

theorem payloadOwnership_emulateRun :
    ∃ s, exec step (serializerCreate eventsWorkOps true) emulateRun = some s ∧
      s.PayloadLaw ∧ RefusedUntouched s ∧ (eventsWorkOps = eventsWorkOps → EmulatedOnce s) :=
  ⟨_, rfl, payloadOwnership eventsWorkOps true emulateRun (by decide) rfl⟩

/-- The event callback runs for longer than the 15 seconds that thread 1 waits. -/
def timeoutRun : List Action :=
  [.execWork 1 0 11 7 15000 true, .insert 1 true 0, .workerTakes, .tick ⟨16, 0⟩,
   .callerWakes 1 .timedOut, .callerFinishes 1, .workFuncReturns 0]

theorem timeoutRun_releases_twice :
    ∃ s, exec step (serializerCreate eventsWorkOps true) timeoutRun = some s ∧
      ¬ s.PayloadLaw ∧ ¬ EmulatedOnce s := by
  have hcell : (exec step (serializerCreate eventsWorkOps true) timeoutRun).map
      (fun s => (s.next, (s.work 0).id, (s.heap 0).ret, (s.heap 0).freeFuncs)) =
        some (1, 0, some 1, 1) := by decide
  obtain ⟨s, hs, hs'⟩ := Option.map_eq_some_iff.mp hcell
  simp only [Prod.mk.injEq] at hs'
  obtain ⟨hnext, hid, hret, hfree⟩ := hs'
  refine ⟨s, hs, fun h => ?_, fun h => ?_⟩
  · have := (h 0 (by rw [hnext]; decide) 1 hret).1 (by decide)
    rw [hfree] at this
    cases this
  · have := (h.1 .sync 0 (by rw [hnext]; decide) hid 1 hret).1
    rw [hfree] at this
    exact absurd this (by decide)

end Dwpal.Ipc
