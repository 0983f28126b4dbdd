import Dwpal.Serializer.Steps

/-! Who releases the object of a work. A submission that returns non-zero leaves the object to its
caller, and one that returns 0 hands it to `free_func`, over whole runs of the serializer; and what
`wave_ipcc_emulate_event` of `wv_ipc/wave_ipc_client.c` makes of it. -/

namespace Dwpal.Serializer

open Dwpal.Machine WorkSerializer

namespace WorkSerializer

/-- Where the call that created a work has returned non-zero, `free_func` was never called on the
object; where it has returned 0, at most once, and once it was executed, cancelled or stopped
exactly once if the work has a `free_func`. -/
def PayloadLaw (s : WorkSerializer) : Prop :=
  ∀ p < s.next, ∀ r, (s.heap p).ret = some r →
    (r ≠ 0 → (s.heap p).freeFuncs = 0) ∧
      (r = 0 → (s.heap p).freeFuncs ≤ 1 ∧
        ((s.heap p).settled = true → (s.heap p).freeFuncs = s.owedFreeFuncs p))

theorem owedFreeFuncs_le (s : WorkSerializer) (p : Ptr) : s.owedFreeFuncs p ≤ 1 :=
  Bool.toNat_le _

theorem workerFreeFuncs_le (s : WorkSerializer) (p : Ptr) :
    s.workerFreeFuncs p ≤ s.owedFreeFuncs p := by
  unfold workerFreeFuncs
  split
  · exact Nat.zero_le _
  · exact Nat.le_refl _

theorem Inv.payloadLaw {O : List WorkOps} {s : WorkSerializer} (h : s.Inv True O) :
    s.PayloadLaw := by
  intro p hp r hr
  obtain ⟨l, hl⟩ := h.lives p
  have hcell := hl.cell
  have howed := s.owedFreeFuncs_le p
  have hworker := s.workerFreeFuncs_le p
  rw [Life.Holds.eq_def, hr] at hcell
  cases l with
  | unborn => exact absurd hp (fun hp => hl.born.mp hp rfl)
  | abandoned => grind
  | freed => grind
  | executing => grind
  | _ => simp_all

end WorkSerializer

/-- The step neither stops a synchronous work nor gives up on one that is being executed and whose
object is to be freed. -/
def KeepsPayload (s : WorkSerializer) (a : Action) : Prop := StopsNoneWaiting s a ∧ GivesUpNone s a

instance (s : WorkSerializer) (a : Action) : Decidable (KeepsPayload s a) :=
  inferInstanceAs (Decidable (_ ∧ _))

theorem run_inv (ops : List WorkOps) (startNow : Bool) {as : List Action} {s : WorkSerializer}
    (hok : Along step KeepsPayload (serializerCreate ops startNow) as)
    (hrun : exec step (serializerCreate ops startNow) as = some s) : s.Inv True ops :=
  exec_along (fun h hok hstep => step_inv h hok.1 (fun _ => hok.2) hstep)
    (serializerCreate_inv True ops startNow) hok hrun

end Dwpal.Serializer
