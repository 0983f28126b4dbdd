import Dwpal.Ext.Services
import Dwpal.Lib.Machine

/-! What the calls that attach and detach interfaces keep of the table of services: a context
belongs to a service, a name has one place, and a call leaves the other interfaces alone. -/

namespace Dwpal.Ext

open Machine
open Daemon (DwpalRet)

/-- A connection type and a name. -/
abbrev Interface := DwpalConnectionType × List UInt8

def DwpalService.interface (service : DwpalService) : Interface :=
  (service.connectionType, service.vapName.bytes)

/-- The interface that a call is about. -/
def ServiceCall.interface : ServiceCall → Option Interface
  | .driverAttach .. | .driverDetach => some (.driver, allName)
  | .hostapAttach vapName _ | .hostapDetach vapName => vapName.map fun name => (.hostap, cstr name)

/-- A context belongs to a service, and an interface has one place. -/
structure ServicesInv (t : Services) : Prop where
  owned : ∀ i, (t i).context = true → (t i).service.isSome
  single : ∀ i j si sj, (t i).service = some si → (t j).service = some sj →
    si.interface = sj.interface → i = j

/-- An attach is in effect: the interface is up, or it is down and is tried again later. -/
def Attaches (call : ServiceCall) (ret : DwpalRet) : Prop :=
  (∃ clb clb', call = .driverAttach clb clb' ∨ ∃ name, call = .hostapAttach name clb) ∧
    (ret = .success ∨ ret = .interfaceIsDown)

/-- What is asked of a call. -/
structure CallLawful (t : Services) (call : ServiceCall) (ret : DwpalRet) (t' : Services) :
    Prop where
  inv : ServicesInv t'
  found : Attaches call ret → ∀ type name, call.interface = some (type, name) →
    (interfaceIndexGet t' type name).isSome
  frame : ∀ i service, (t i).service = some service → call.interface ≠ some service.interface →
    t' i = t i

section Lookup

variable {t : Services} {type : DwpalConnectionType} {name : List UInt8}

theorem named_iff_interface {service : DwpalService} :
    service.named type name = true ↔ service.interface = (type, cstr name) := by
  have hlt := service.vapName.length_lt
  rw [DwpalService.named, Bool.and_eq_true, beq_iff_eq, strncmpEq_iff, CString.cstr_bytes,
    dwpalVapNameStringLength, CString.take_bytes, DwpalService.interface, Prod.mk.injEq,
    eq_comm (a := type)]
  refine and_congr_right fun _ => ⟨fun h => ?_, fun h => ?_⟩
  · have hlen := congrArg List.length h
    rw [List.length_take] at hlen
    rw [← h, List.take_of_length_le (by omega)]
  · rw [← h, CString.take_bytes]

theorem interfaceIndexGet_some {i : Fin numOfServices}
    (h : interfaceIndexGet t type name = some i) :
    ∃ service, (t i).service = some service ∧ service.interface = (type, cstr name) := by
  have hany := List.find?_some h
  obtain ⟨service, hservice, hnamed⟩ := (Option.any_eq_true ..).mp hany
  exact ⟨service, hservice, named_iff_interface.mp hnamed⟩

theorem interfaceIndexGet_none (h : interfaceIndexGet t type name = none) {i : Fin numOfServices}
    {service : DwpalService} (hservice : (t i).service = some service) :
    service.interface ≠ (type, cstr name) := by
  intro hinterface
  refine List.find?_eq_none.mp h i (List.mem_finRange i) ?_
  rw [hservice]
  exact named_iff_interface.mpr hinterface

/-- A service of an interface that has one place is found. -/
theorem interfaceIndexGet_eq (hinv : ServicesInv t) {i : Fin numOfServices} {service : DwpalService}
    (hservice : (t i).service = some service) (hinterface : service.interface = (type, cstr name)) :
    interfaceIndexGet t type name = some i := by
  cases hget : interfaceIndexGet t type name with
  | none => exact absurd hinterface (interfaceIndexGet_none hget hservice)
  | some j =>
    obtain ⟨found, hfound, hsame⟩ := interfaceIndexGet_some hget
    rw [hinv.single i j service found hservice hfound (hinterface.trans hsame.symm)]

/-- A name that is cut off is not found. -/
theorem interfaceIndexGet_long (hlong : 16 ≤ (cstr name).length) :
    interfaceIndexGet t type name = none := by
  cases hget : interfaceIndexGet t type name with
  | none => rfl
  | some i =>
    obtain ⟨service, -, hinterface⟩ := interfaceIndexGet_some hget
    have hlt := service.vapName.length_lt
    have hbytes : service.vapName.bytes = cstr name := (Prod.mk.inj hinterface).2
    rw [hbytes] at hlt
    omega

/-- The interface has no place but `i`. -/
def Placed (t : Services) (i : Fin numOfServices) (interface : Interface) : Prop :=
  ∀ j service, (t j).service = some service → service.interface = interface → j = i

theorem placed_of_some (hinv : ServicesInv t) {i : Fin numOfServices}
    (h : interfaceIndexGet t type name = some i) : Placed t i (type, cstr name) := by
  obtain ⟨found, hfound, hsame⟩ := interfaceIndexGet_some h
  intro j service hservice hinterface
  exact hinv.single j i service found hservice hfound (hinterface.trans hsame.symm)

theorem placed_of_none (h : interfaceIndexGet t type name = none) (i : Fin numOfServices) :
    Placed t i (type, cstr name) :=
  fun _ _ hservice hinterface => absurd hinterface (interfaceIndexGet_none h hservice)

theorem ServicesInv.update (hinv : ServicesInv t) {i : Fin numOfServices} {s : Slot}
    (hplaced : ∀ service, s.service = some service → Placed t i service.interface)
    (howned : s.context = true → s.service.isSome) : ServicesInv (Function.update t i s) := by
  constructor
  · intro j hcontext
    by_cases hj : j = i
    · subst hj
      rw [Function.update_self] at hcontext ⊢
      exact howned hcontext
    · rw [Function.update_of_ne hj] at hcontext ⊢
      exact hinv.owned j hcontext
  · intro j k sj sk hsj hsk hsame
    by_cases hj : j = i
    · by_cases hk : k = i
      · rw [hj, hk]
      · subst hj
        rw [Function.update_self] at hsj
        rw [Function.update_of_ne hk] at hsk
        exact (hplaced sj hsj k sk hsk hsame.symm).symm
    · rw [Function.update_of_ne hj] at hsj
      by_cases hk : k = i
      · subst hk
        rw [Function.update_self] at hsk
        exact hplaced sk hsk j sj hsj hsame
      · rw [Function.update_of_ne hk] at hsk
        exact hinv.single j k sj sk hsj hsk hsame

end Lookup

section Calls

variable {t : Services} {call : ServiceCall} {ret : DwpalRet} {interface : Interface}
  {i : Fin numOfServices} {s : Slot}

/-- A call that changes the place of its interface only. -/
theorem callLawful_update (interface : Interface) (hinv : ServicesInv t)
    (hcall : call.interface = some interface)
    (hplaced : Placed t i interface)
    (hold : ∀ service, (t i).service = some service → service.interface = interface)
    (hnew : ∀ service, s.service = some service → service.interface = interface)
    (howned : s.context = true → s.service.isSome)
    (hfound : Attaches call ret → s.service.isSome) :
    CallLawful t call ret (Function.update t i s) := by
  have hinv' : ServicesInv (Function.update t i s) :=
    hinv.update (fun service hservice => hnew service hservice ▸ hplaced) howned
  refine ⟨hinv', fun hattaches type name hname => ?_, fun j service hservice hother => ?_⟩
  · obtain ⟨service, hservice⟩ := Option.isSome_iff_exists.mp (hfound hattaches)
    have hsame : (type, name) = service.interface :=
      (Option.some.inj (hname.symm.trans hcall)).trans (hnew service hservice).symm
    have hcstr : cstr name = name := by
      rw [(Prod.mk.inj hsame).2]
      exact service.vapName.cstr_bytes
    have hplace : (Function.update t i s i).service = some service := by
      rw [Function.update_self]
      exact hservice
    rw [interfaceIndexGet_eq hinv' hplace (by rw [← hsame, hcstr])]
    rfl
  · have hj : j ≠ i := by
      rintro rfl
      exact hother (by rw [hcall, hold service hservice])
    rw [Function.update_of_ne hj]

/-- A call that changes nothing. -/
theorem callLawful_same (hinv : ServicesInv t)
    (hfound : Attaches call ret → ∀ type name, call.interface = some (type, name) →
      (interfaceIndexGet t type name).isSome) : CallLawful t call ret t :=
  ⟨hinv, hfound, fun _ _ _ _ => rfl⟩

theorem callLawful_failure (hinv : ServicesInv t) : CallLawful t call .failure t :=
  callLawful_same hinv fun h => (by rcases h.2 with h | h <;> cases h)

/-- A call that frees the service of its interface. -/
theorem callLawful_release (hinv : ServicesInv t) (hcall : call.interface = some interface)
    (hplaced : Placed t i interface)
    (hold : ∀ service, (t i).service = some service → service.interface = interface)
    (hattaches : ¬ Attaches call ret) {context : Bool} :
    CallLawful t call ret (Function.update t i ⟨none, context⟩) ↔ context = false := by
  constructor
  · intro h
    by_contra hcontext
    have howned := h.inv.owned i (by rw [Function.update_self]; simpa using hcontext)
    rw [Function.update_self] at howned
    cases howned
  · rintro rfl
    exact callLawful_update interface hinv hcall hplaced hold (fun _ h => (by cases h))
      (fun h => (by cases h)) fun h => absurd h hattaches

/-- The condition on a call: a name that is cut off gets no service, the driver's attach does not
free the service in the first place, and no context outlives its service. -/
def SlotsSafe (lower : LowerLevel) (listener : Bool) (t : Services) : ServiceCall → Prop
  | .driverAttach _ _ => listener = false → interfaceIndexGet t .driver allName = none →
      (lower.calloc = true ∧ ∃ i, (t i).service = none) ∨ (t 0).service = none
  | .driverDetach => listener = false → ∀ i, interfaceIndexGet t .driver allName = some i →
      (t i).context = true → lower.detach = true
  | .hostapAttach (some name) (some _) => listener = false → 16 ≤ (cstr name).length →
      lower.calloc = false ∨ ∀ i, (t i).service ≠ none
  | .hostapDetach (some name) => listener = false → ∀ i,
      interfaceIndexGet t .hostap name = some i → (t i).context = true → lower.detach = true
  | .hostapAttach _ _ | .hostapDetach none => True

variable {lower : LowerLevel} {listener : Bool}

theorem hold_of_get {type : DwpalConnectionType} {name : List UInt8}
    (h : interfaceIndexGet t type name = some i) (service : DwpalService)
    (hservice : (t i).service = some service) : service.interface = (type, cstr name) := by
  obtain ⟨found, hfound, hsame⟩ := interfaceIndexGet_some h
  rw [hservice] at hfound
  rw [Option.some.inj hfound]
  exact hsame

theorem driverDetach_lawful (hinv : ServicesInv t) :
    CallLawful t .driverDetach (dwpalExtDriverNlDetach lower listener t).1
        (dwpalExtDriverNlDetach lower listener t).2 ↔
      SlotsSafe lower listener t .driverDetach := by
  have hnot : ∀ {ret}, ¬ Attaches .driverDetach ret := by
    rintro ret ⟨⟨_, _, h | ⟨_, h⟩⟩, -⟩ <;> cases h
  rw [dwpalExtDriverNlDetach, SlotsSafe]
  cases listener with
  | true => exact iff_of_true (callLawful_failure hinv) fun h => (by cases h)
  | false =>
    simp only [Bool.false_eq_true, if_false, forall_true_left]
    cases hget : interfaceIndexGet t .driver allName with
    | none =>
      exact iff_of_true (callLawful_same hinv fun h => absurd h hnot) fun _ h => (by cases h)
    | some i =>
      have hrelease := fun ret context => @callLawful_release t .driverDetach ret
        (.driver, cstr allName) i hinv rfl (placed_of_some hinv hget)
        (hold_of_get hget) hnot context
      cases hcontext : (t i).context <;> cases hdetach : lower.detach
      all_goals simp [hcontext, hrelease]

theorem hostapDetach_lawful (hinv : ServicesInv t) (vapName : Option (List UInt8)) :
    CallLawful t (.hostapDetach vapName) (dwpalExtHostapInterfaceDetach lower listener t vapName).1
        (dwpalExtHostapInterfaceDetach lower listener t vapName).2 ↔
      SlotsSafe lower listener t (.hostapDetach vapName) := by
  have hnot : ∀ {ret}, ¬ Attaches (.hostapDetach vapName) ret := by
    rintro ret ⟨⟨_, _, h | ⟨_, h⟩⟩, -⟩ <;> cases h
  cases vapName with
  | none => exact iff_of_true (callLawful_failure hinv) trivial
  | some name =>
    rw [dwpalExtHostapInterfaceDetach, SlotsSafe]
    cases listener with
    | true => exact iff_of_true (callLawful_failure hinv) fun h => (by cases h)
    | false =>
      simp only [Bool.false_eq_true, if_false, forall_true_left]
      cases hget : interfaceIndexGet t .hostap name with
      | none =>
        exact iff_of_true (callLawful_same hinv fun h => absurd h hnot) fun _ h => (by cases h)
      | some i =>
        have hrelease := fun ret context => @callLawful_release t (.hostapDetach (some name)) ret
          (.hostap, cstr name) i hinv rfl (placed_of_some hinv hget) (hold_of_get hget) hnot context
        cases hcontext : (t i).context <;> cases hdetach : lower.detach
        all_goals simp [hcontext, hrelease]

theorem free_of_find (h : ((List.finRange numOfServices).find? fun i => (t i).service.isNone)
    = some i) : (t i).service = none := by
  have hnone := List.find?_some h
  simpa using hnone

theorem occupied_of_find (h : ((List.finRange numOfServices).find? fun i => (t i).service.isNone)
    = none) (i : Fin numOfServices) : (t i).service ≠ none := by
  have hnone := List.find?_eq_none.mp h i (List.mem_finRange i)
  simpa using hnone

theorem cstr_allName : cstr allName = allName := by decide

/-- The failure of the driver's attach frees the first service. -/
theorem freeFirst_lawful (hinv : ServicesInv t) {clb clb' : Option Callback}
    (hget : interfaceIndexGet t .driver allName = none) :
    CallLawful t (.driverAttach clb clb') .failure
        (Function.update t 0 { t 0 with service := none }) ↔ (t 0).service = none := by
  constructor
  · intro h
    by_contra hne
    obtain ⟨service, hservice⟩ := Option.ne_none_iff_exists'.mp hne
    have hother : (ServiceCall.driverAttach clb clb').interface ≠ some service.interface := by
      intro hsame
      refine interfaceIndexGet_none hget hservice ?_
      rw [cstr_allName]
      exact (Option.some.inj hsame).symm
    have hsame := h.frame 0 service hservice hother
    rw [Function.update_self] at hsame
    rw [← hsame] at hservice
    cases hservice
  · intro hfree
    have hsame : Function.update t 0 { t 0 with service := none } = t := by
      rw [← hfree]
      exact Function.update_eq_self 0 t
    rw [hsame]
    exact callLawful_failure hinv

theorem driverAttach_lawful (hinv : ServicesInv t) (clb clb' : Option Callback) :
    CallLawful t (.driverAttach clb clb') (dwpalExtDriverNlAttach lower listener t clb clb').1
        (dwpalExtDriverNlAttach lower listener t clb clb').2 ↔
      SlotsSafe lower listener t (.driverAttach clb clb') := by
  rw [dwpalExtDriverNlAttach, SlotsSafe]
  cases listener with
  | true => exact iff_of_true (callLawful_failure hinv) fun h => (by cases h)
  | false =>
    simp only [Bool.false_eq_true, if_false, forall_true_left]
    cases hget : interfaceIndexGet t .driver allName with
    | some i =>
      have hhold := hold_of_get hget
      have hplaced := placed_of_some hinv hget
      obtain ⟨found, hfound, hsame⟩ := interfaceIndexGet_some hget
      have hexists : ∀ type name, (ServiceCall.driverAttach clb clb').interface =
          some (type, name) → (interfaceIndexGet t type name).isSome := by
        rintro type name h
        cases h
        rw [hget]
        rfl
      refine iff_of_true ?_ fun h => (by cases h)
      cases hcontext : (t i).context with
      | true =>
        rw [Option.any_some, if_pos hcontext]
        exact callLawful_same hinv fun _ => hexists
      | false =>
        rw [Option.any_some, hcontext, if_neg Bool.false_ne_true]
        simp only [interfaceIndexCreate, hget, hcontext, Bool.false_eq_true, if_false]
        cases lower.attach with
        | true =>
          refine callLawful_update (.driver, cstr allName) hinv rfl hplaced hhold ?_ ?_ ?_
          · intro service hservice
            rw [hfound] at hservice
            rw [← Option.some.inj hservice]
            exact hsame
          · intro _
            rw [hfound]
            rfl
          · intro _
            rw [hfound]
            rfl
        | false =>
          exact callLawful_update (.driver, cstr allName) hinv rfl hplaced hhold
            (fun _ h => (by cases h)) (fun h => (by cases h))
            fun h => (by rcases h.2 with h | h <;> cases h)
    | none =>
      simp only [Option.any_none, Bool.false_eq_true, if_false, interfaceIndexCreate, hget]
      cases hfind : (List.finRange numOfServices).find? fun i => (t i).service.isNone with
      | none =>
        refine (freeFirst_lawful hinv hget).trans ⟨fun h _ => .inr h, fun h => ?_⟩
        rcases h trivial with ⟨-, i, hi⟩ | h
        · exact absurd hi (occupied_of_find hfind i)
        · exact h
      | some i =>
        have hfree := free_of_find hfind
        cases hcalloc : lower.calloc with
        | false =>
          simp only [Bool.false_eq_true, if_false]
          refine (freeFirst_lawful hinv hget).trans ⟨fun h _ => .inr h, fun h => ?_⟩
          rcases h trivial with ⟨h, -⟩ | h
          · cases h
          · exact h
        | true =>
          refine iff_of_true ?_ fun _ => .inl ⟨rfl, i, hfree⟩
          have hhold : ∀ service, (t i).service = some service →
              service.interface = (.driver, cstr allName) := by
            intro service hservice
            rw [hfree] at hservice
            cases hservice
          have hplaced := placed_of_none hget i
          simp only [if_true, Function.update_idem, Function.update_self]
          cases lower.attach with
          | true =>
            refine callLawful_update (.driver, cstr allName) hinv rfl hplaced hhold ?_ ?_ ?_
            · rintro service hservice
              cases hservice
              rfl
            · exact fun _ => rfl
            · exact fun _ => rfl
          | false =>
            exact callLawful_update (.driver, cstr allName) hinv rfl hplaced hhold
              (fun _ h => (by cases h)) (fun h => (by cases h))
              fun h => (by rcases h.2 with h | h <;> cases h)

/-- What `STATUS` changes is in the place of its interface. -/
theorem statusSend_spec (hinv : ServicesInv t) {service : DwpalService}
    (hservice : (t i).service = some service) (htype : service.connectionType = .hostap) :
    ∃ s after, statusSend lower t service.vapName.bytes = Function.update t i s ∧
      s.service = some after ∧ after.interface = service.interface := by
  have hsame : Function.update t i (t i) = t := Function.update_eq_self i t
  have hinterface : service.interface = (.hostap, cstr service.vapName.bytes) := by
    rw [DwpalService.interface, htype, service.vapName.cstr_bytes]
  rw [statusSend, interfaceIndexGet_eq hinv hservice hinterface]
  dsimp only
  split_ifs with hneeded hcontext hfailed
  · exact ⟨t i, service, hsame.symm, hservice, rfl⟩
  · exact ⟨t i, service, hsame.symm, hservice, rfl⟩
  · exact ⟨_, { service with isConnectionEstablishNeeded := true }, rfl, by rw [hservice]; rfl, rfl⟩
  · exact ⟨t i, service, hsame.symm, hservice, rfl⟩

/-- An attach of a service that has its place leaves a service of the interface there. -/
theorem hostapAttachAt_spec (lower : LowerLevel) (hinv : ServicesInv t) {service : DwpalService}
    (hservice : (t i).service = some service) (htype : service.connectionType = .hostap)
    (hostapEventCallback : Callback) :
    ∃ s after, (hostapAttachAt lower t i hostapEventCallback).2 = Function.update t i s ∧
      s.service = some after ∧ after.interface = service.interface := by
  obtain ⟨up, hup⟩ : ∃ up, up = ((t i).context || lower.attach) := ⟨_, rfl⟩
  let attached : DwpalService :=
    { service with
      isConnectionEstablishNeeded := !up
      hostapEventCallback := some hostapEventCallback }
  have hinv' : ServicesInv (Function.update t i ⟨some attached, up⟩) := by
    refine hinv.update (fun after hafter => ?_) fun _ => rfl
    cases hafter
    intro j other hother hsame
    exact hinv.single j i other service hother hservice hsame
  have hplace : (Function.update t i ⟨some attached, up⟩ i).service = some attached := by
    rw [Function.update_self]
  rw [hostapAttachAt, ← hup, hservice, Option.map_some]
  cases up with
  | false => exact ⟨_, attached, rfl, rfl, rfl⟩
  | true =>
    rw [if_pos rfl, interfaceConnectedOkSend, hplace]
    cases lower.status with
    | none => exact ⟨_, attached, rfl, rfl, rfl⟩
    | some status =>
      obtain ⟨s, after, hsend, hafter, hsame⟩ := statusSend_spec hinv' hplace htype
      exact ⟨s, after, hsend.trans (Function.update_idem ..), hafter, hsame⟩

theorem hostapAttachAt_ret (clb : Callback) :
    (hostapAttachAt lower t i clb).1 = .success ∨
      (hostapAttachAt lower t i clb).1 = .interfaceIsDown := by
  rw [hostapAttachAt]
  split
  · exact .inl rfl
  · exact .inr rfl

/-- An attach of a service that is in the place of its interface, or that was made there. -/
theorem hostapAttachAt_lawful (hinv : ServicesInv t) {name : List UInt8}
    (hplaced : Placed t i (.hostap, cstr name))
    (hhold : ∀ service, (t i).service = some service → service.interface = (.hostap, cstr name))
    {service : DwpalService} (hservice : s.service = some service)
    (hinterface : service.interface = (.hostap, cstr name)) (clb : Callback) :
    CallLawful t (.hostapAttach (some name) (some clb)) ret
      (hostapAttachAt lower (Function.update t i s) i clb).2 := by
  have hinv' : ServicesInv (Function.update t i s) := by
    refine hinv.update (fun found hfound => ?_) fun _ => by rw [hservice]; rfl
    rw [hservice] at hfound
    rw [← Option.some.inj hfound, hinterface]
    exact hplaced
  obtain ⟨after, found, hattach, hafter, hsame⟩ := hostapAttachAt_spec lower hinv'
    (by rw [Function.update_self]; exact hservice) (Prod.mk.inj hinterface).1 clb
  rw [hattach, Function.update_idem]
  refine callLawful_update (.hostap, cstr name) hinv rfl hplaced hhold ?_ ?_ ?_
  · intro other hother
    rw [hafter] at hother
    rw [← Option.some.inj hother]
    exact hsame.trans hinterface
  · intro _
    rw [hafter]
    rfl
  · intro _
    rw [hafter]
    rfl

theorem newService_interface {type : DwpalConnectionType} {name : List UInt8}
    (hshort : (cstr name).length < 16) : (newService type name).interface = (type, cstr name) := by
  have hbytes : (newService type name).vapName.bytes = cstr name := if_pos hshort
  rw [DwpalService.interface, hbytes]
  rfl

theorem hostapAttach_lawful (hinv : ServicesInv t) (vapName : Option (List UInt8))
    (clb : Option Callback) :
    CallLawful t (.hostapAttach vapName clb)
        (dwpalExtHostapInterfaceAttach lower listener t vapName clb).1
        (dwpalExtHostapInterfaceAttach lower listener t vapName clb).2 ↔
      SlotsSafe lower listener t (.hostapAttach vapName clb) := by
  cases vapName with
  | none => exact iff_of_true (callLawful_failure hinv) trivial
  | some name =>
    cases clb with
    | none => exact iff_of_true (callLawful_failure hinv) trivial
    | some clb =>
      rw [dwpalExtHostapInterfaceAttach, SlotsSafe]
      cases listener with
      | true => exact iff_of_true (callLawful_failure hinv) fun h => (by cases h)
      | false =>
        simp only [Bool.false_eq_true, if_false, forall_true_left]
        cases hget : interfaceIndexGet t .hostap name with
        | some i =>
          obtain ⟨service, hservice, hinterface⟩ := interfaceIndexGet_some hget
          have hnotLong : ¬ 16 ≤ (cstr name).length := by
            intro hlong
            rw [interfaceIndexGet_long hlong] at hget
            cases hget
          refine iff_of_true ?_ fun h => absurd h hnotLong
          cases hcontext : (t i).context with
          | true =>
            rw [Option.any_some, if_pos hcontext]
            refine callLawful_same hinv fun _ type name' h => ?_
            cases h
            rw [interfaceIndexGet_eq hinv hservice (by rw [hinterface, cstr_cstr])]
            rfl
          | false =>
            simp only [Option.any_some, hcontext, Bool.false_eq_true, if_false,
              interfaceIndexCreate, hget]
            have hlawful := @hostapAttachAt_lawful t (hostapAttachAt lower t i clb).1 i (t i) lower
              hinv name (placed_of_some hinv hget)
                (hold_of_get hget) service hservice hinterface clb
            rw [Function.update_eq_self] at hlawful
            exact hlawful
        | none =>
          simp only [Option.any_none, Bool.false_eq_true, if_false, interfaceIndexCreate, hget]
          cases hfind : (List.finRange numOfServices).find? fun i => (t i).service.isNone with
          | none =>
            exact iff_of_true (callLawful_failure hinv) fun _ => .inr (occupied_of_find hfind)
          | some i =>
            have hfree := free_of_find hfind
            cases hcalloc : lower.calloc with
            | false =>
              simp only [Bool.false_eq_true, if_false]
              exact iff_of_true (callLawful_failure hinv) fun _ => .inl trivial
            | true =>
              simp only [if_true]
              by_cases hlong : 16 ≤ (cstr name).length
              · refine iff_of_false (fun h => ?_) fun h => ?_
                · have hattaches : Attaches (.hostapAttach (some name) (some clb))
                      (hostapAttachAt lower (Function.update t i
                        { t i with service := some (newService .hostap name) }) i clb).1 :=
                    ⟨⟨some clb, none, .inr ⟨_, rfl⟩⟩, hostapAttachAt_ret clb⟩
                  have hsome := h.found hattaches .hostap (cstr name) rfl
                  rw [interfaceIndexGet_long (by rw [cstr_cstr]; exact hlong)] at hsome
                  cases hsome
                · rcases h hlong with h | h
                  · cases h
                  · exact h i hfree
              · refine iff_of_true ?_ fun h => absurd h hlong
                refine hostapAttachAt_lawful hinv (placed_of_none hget i) ?_ rfl
                  (newService_interface (by omega)) clb
                intro service hservice
                rw [hfree] at hservice
                cases hservice

/-- Every call is lawful exactly when its condition holds. -/
theorem run_lawful (hinv : ServicesInv t) (call : ServiceCall) :
    CallLawful t call (call.run lower listener t).1 (call.run lower listener t).2 ↔
      SlotsSafe lower listener t call := by
  cases call with
  | driverAttach clb clb' => exact driverAttach_lawful hinv clb clb'
  | driverDetach => exact driverDetach_lawful hinv
  | hostapAttach name clb => exact hostapAttach_lawful hinv name clb
  | hostapDetach name => exact hostapDetach_lawful hinv name

end Calls

/-- A call in a run: what is below it, and whether the listener thread makes it. -/
structure CallEvent where
  lower : LowerLevel
  listener : Bool
  call : ServiceCall

def callStep (t : Services) (e : CallEvent) : Option Services :=
  some (e.call.run e.lower e.listener t).2

/-- No interface is attached. -/
def noServices : Services := fun _ => ⟨none, false⟩

theorem noServices_inv : ServicesInv noServices :=
  ⟨fun _ h => (by cases h), fun _ _ _ _ h => (by cases h)⟩

/-- A call that keeps the table lawful. -/
def KeepsSlots (t : Services) (e : CallEvent) : Prop :=
  CallLawful t e.call (e.call.run e.lower e.listener t).1 (e.call.run e.lower e.listener t).2

/-- The condition of `SlotsSafe` on a call of a run. -/
def CallSafe (t : Services) (e : CallEvent) : Prop :=
  SlotsSafe e.lower e.listener t e.call

/-- Every call of a run keeps the table of services exactly when every call meets its condition. -/
theorem serviceTable (events : List CallEvent) :
    Along callStep KeepsSlots noServices events ↔ Along callStep CallSafe noServices events := by
  refine along_iff (fun hinv => run_lawful hinv _) ?_ noServices_inv
  intro t e t' hinv hkeeps hstep
  cases hstep
  exact hkeeps.inv

/-- An attach of a name of 16 characters that succeeds. -/
def attachLongName : CallEvent where
  lower := ⟨true, true, true, none, true⟩
  listener := false
  call := .hostapAttach (some (ascii "wlan0_longer.vap")) (some 1)

theorem longName_notFound : ¬ ∀ events, Along callStep KeepsSlots noServices events := by
  intro h
  have hkeeps : KeepsSlots noServices attachLongName := (h [attachLongName]).1
  have hsome := hkeeps.found ⟨⟨some 1, none, .inr ⟨_, rfl⟩⟩, .inl (by decide)⟩
    .hostap (cstr (ascii "wlan0_longer.vap")) rfl
  rw [interfaceIndexGet_long (by decide)] at hsome
  cases hsome

end Dwpal.Ext
