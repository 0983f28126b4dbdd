import Dwpal.Ipc.PendingAccounts

/-! The packets of one class that a thread submits for a station are written in the order in which
they were submitted, and none of them gets lost while the station is there. -/

namespace Dwpal.Ipc

open Machine

variable {θ μ : Type}

/-- Between the two assignments to `has_pending_msgs`, no thread tests it for an event while an
earlier event of its own is pending. -/
def NotOverlooked (s : WvIpserver θ μ) : OutputAction θ μ → Prop
  | .submit t ipsta .event _ => Round.stageOf ipsta s.round = some .mergeFlag →
      ∀ m ∈ (s.sta ipsta).pending .event, m.packet.thread ≠ t
  | _ => True

instance [DecidableEq θ] (s : WvIpserver θ μ) : ∀ a, Decidable (NotOverlooked s a)
  | .submit t ipsta .event _ => inferInstanceAs (Decidable
      (Round.stageOf ipsta s.round = some .mergeFlag →
        ∀ m ∈ (s.sta ipsta).pending .event, m.packet.thread ≠ t))
  | .submit _ _ .reply _ | .accept | .send .. | .sendWouldBlock .. | .startRound | .round _
  | .disconnect _ | .incref _ | .decref _ => .isTrue trivial

/-- A thread that finds the flag unset has nothing of its own on the list. -/
theorem AccountInv.direct {s : WvIpserver θ μ} {ipsta : Station} (h : AccountInv s) {t : Option θ}
    {cls : PacketClass} {msg : μ} (hok : NotOverlooked s (.submit t ipsta cls msg))
    (hunset : (s.sta ipsta).hasPendingMsgs = false) :
    ∀ m ∈ (s.sta ipsta).pending cls, m.packet.thread ≠ t := by
  have hflags := h.flags ipsta
  have hempty : (s.sta ipsta).pending cls = [] →
      ∀ m ∈ (s.sta ipsta).pending cls, m.packet.thread ≠ t := fun hnil m hm => by
    rw [hnil] at hm
    cases hm
  cases hstage : Round.stageOf ipsta s.round with
  | none =>
    rw [hstage] at hflags
    exact hempty (hflags.1 hunset cls)
  | some stage =>
    rw [hstage] at hflags
    cases stage with
    | resend _ _ =>
      have hset : (s.sta ipsta).hasPendingMsgs = true := hflags
      rw [hunset] at hset
      cases hset
    | setFlag =>
      have hset : (s.sta ipsta).hasPendingMsgs = true := hflags
      rw [hunset] at hset
      cases hset
    | mergeFlag =>
      -- the replies are all gone, but the events are not looked at yet
      cases cls with
      | reply =>
        have hreplies : (s.sta ipsta).hasPendingMsgs = !((s.sta ipsta).pending .reply).isEmpty :=
          hflags
        refine hempty (List.isEmpty_iff.mp ?_)
        rw [hunset] at hreplies
        simpa using hreplies.symm
      | event => exact hok hstage
    | removeStuck => exact hempty (hflags.1 hunset cls)

variable [DecidableEq θ]

/-- The packet is of the class `cls` and from the thread `t`. -/
def Packet.isOf (cls : PacketClass) (t : Option θ) (packet : Packet θ μ) : Bool :=
  packet.thread = t ∧ packet.cls = cls

/-- What a thread submits for a station is written in that order, no packet twice, and what was
accepted is written or pending unless the station has been removed. -/
structure OutputOrdered (s : WvIpserver θ μ) : Prop where
  order : ∀ ipsta cls t,
    ((s.sta ipsta).written.filter (Packet.isOf cls t)).Pairwise fun p q => p.number < q.number
  kept : ∀ packet ∈ s.accepted, packet ∈ (s.sta packet.ipsta).written ∨
    packet ∈ ((s.sta packet.ipsta).pending packet.cls).map PendingMsg.packet ∨
    (s.sta packet.ipsta).isConnected = false

/-- The packet that a thread is about to send or park. -/
def SendPc.packet? : SendPc θ μ → Option (Packet θ μ)
  | .idle => none
  | .send packet | .wouldBlock packet => some packet

/-- The packets of one class from one thread, as they were and will be written. -/
def WvIpstation.track (sta : WvIpstation θ μ) (cls : PacketClass) (t : Option θ) :
    List (Packet θ μ) :=
  (sta.written ++ (sta.pending cls).map PendingMsg.packet).filter (Packet.isOf cls t)

structure OrderInv (s : WvIpserver θ μ) : Prop where
  parked : ∀ ipsta cls, ∀ m ∈ (s.sta ipsta).pending cls, m.packet.cls = cls
  sorted : ∀ ipsta cls t, ((s.sta ipsta).track cls t).Pairwise fun p q => p.number < q.number
  bound : ∀ ipsta cls t, ∀ p ∈ (s.sta ipsta).track cls t, p.number < s.submitted
  inFlight : ∀ t packet, (s.pc t).packet? = some packet →
    packet.thread = t ∧ packet.number < s.submitted ∧ packet.ipsta < s.created ∧
      ∀ p ∈ (s.sta packet.ipsta).track packet.cls t, p.number < packet.number
  direct : ∀ t packet, s.pc t = .send packet →
    ∀ m ∈ (s.sta packet.ipsta).pending packet.cls, m.packet.thread ≠ t
  kept : ∀ packet ∈ s.accepted, packet.ipsta < s.created ∧
    (packet ∈ (s.sta packet.ipsta).track packet.cls packet.thread ∨
      (s.sta packet.ipsta).isConnected = false)

@[simp] theorem isOf_iff {cls : PacketClass} {t : Option θ} {packet : Packet θ μ} :
    packet.isOf cls t = true ↔ packet.thread = t ∧ packet.cls = cls := by
  simp [Packet.isOf]

/-- What is still pending goes out in the order in which it is pending. -/
theorem track_sublist {sta sta' : WvIpstation θ μ} {cls : PacketClass}
    (hwritten : sta'.written = sta.written)
    (hpending : (sta'.pending cls).Sublist (sta.pending cls)) (t : Option θ) :
    (sta'.track cls t).Sublist (sta.track cls t) := by
  rw [WvIpstation.track, WvIpstation.track, hwritten]
  exact ((List.Sublist.refl _).append (hpending.map _)).filter _

theorem track_congr {sta sta' : WvIpstation θ μ} (hwritten : sta'.written = sta.written)
    (hpending : sta'.pending = sta.pending) (cls : PacketClass) (t : Option θ) :
    sta'.track cls t = sta.track cls t := by
  rw [WvIpstation.track, WvIpstation.track, hwritten, hpending]

/-- The first pending packet of a list is written. -/
theorem track_resent {sta sta' : WvIpstation θ μ} {cls : PacketClass} {m : PendingMsg θ μ}
    {rest : List (PendingMsg θ μ)} (hpending : sta.pending cls = m :: rest)
    (hcls : m.packet.cls = cls) (hwritten : sta'.written = sta.written ++ [m.packet])
    (hrest : sta'.pending = Function.update sta.pending cls rest) (other : PacketClass)
    (t : Option θ) : sta'.track other t = sta.track other t := by
  rw [WvIpstation.track, WvIpstation.track, hwritten, hrest]
  by_cases hother : other = cls
  · rw [hother, Function.update_self, hpending, List.map_cons, List.append_assoc]
    rfl
  · have hforeign : Packet.isOf other t m.packet ≠ true := fun hof =>
      hother ((isOf_iff.mp hof).2.symm.trans hcls)
    rw [Function.update_of_ne hother, List.filter_append, List.filter_append,
      List.filter_cons_of_neg hforeign, List.filter_nil, List.append_nil, List.filter_append]

namespace OrderInv

variable {s s' : WvIpserver θ μ} {ipsta : Station} {sta : WvIpstation θ μ}

theorem init : OrderInv (WvIpserver.init : WvIpserver θ μ) where
  parked _ _ m hm := by cases hm
  sorted _ _ _ := .nil
  bound _ _ _ p hp := by cases hp
  inFlight _ _ hpc := by cases hpc
  direct _ _ hpc := by cases hpc
  kept packet hp := by cases hp

/-- One station changes, but not what is to be written to it, unless it is removed. -/
theorem change (h : OrderInv s) (hsta : s'.sta = Function.update s.sta ipsta sta)
    (hpc : s'.pc = s.pc) (hsubmitted : s'.submitted = s.submitted)
    (haccepted : s'.accepted = s.accepted) (hcreated : s'.created = s.created)
    (hpending : ∀ cls, sta.pending cls ⊆ (s.sta ipsta).pending cls)
    (htrack : ∀ cls t, (sta.track cls t).Sublist ((s.sta ipsta).track cls t))
    (hconn : sta.isConnected = false ∨ sta.isConnected = (s.sta ipsta).isConnected ∧
      ∀ cls t, sta.track cls t = (s.sta ipsta).track cls t) : OrderInv s' := by
  have hat : ∀ other cls, (s'.sta other).pending cls ⊆ (s.sta other).pending cls :=
      fun other cls => by
    by_cases hother : other = ipsta
    · rw [hsta, hother, Function.update_self]
      exact hpending cls
    · rw [hsta, Function.update_of_ne hother]
      exact List.Subset.refl _
  have hline : ∀ other cls t, ((s'.sta other).track cls t).Sublist ((s.sta other).track cls t) :=
    fun other cls t => by
      by_cases hother : other = ipsta
      · rw [hsta, hother, Function.update_self]
        exact htrack cls t
      · rw [hsta, Function.update_of_ne hother]
  refine ⟨?_, ?_, ?_, ?_, ?_, ?_⟩
  · exact fun other cls m hm => h.parked other cls m (hat other cls hm)
  · exact fun other cls t => (h.sorted other cls t).sublist (hline other cls t)
  · intro other cls t p hp
    rw [hsubmitted]
    exact h.bound other cls t p ((hline other cls t).subset hp)
  · intro t packet hpacket
    rw [hpc] at hpacket
    rw [hsubmitted, hcreated]
    obtain ⟨hthread, hlt, hknown, hlast⟩ := h.inFlight t packet hpacket
    exact ⟨hthread, hlt, hknown, fun p hp => hlast p ((hline _ _ _).subset hp)⟩
  · intro t packet hsend m hm
    rw [hpc] at hsend
    exact h.direct t packet hsend m (hat _ _ hm)
  · intro packet hp
    rw [haccepted] at hp
    rw [hcreated]
    obtain ⟨hknown, hkept⟩ := h.kept packet hp
    refine ⟨hknown, ?_⟩
    by_cases hother : packet.ipsta = ipsta
    · rw [hsta, hother, Function.update_self]
      rcases hconn with hgone | ⟨hsame, htracks⟩
      · exact .inr hgone
      · rw [hsame, htracks, ← hother]
        exact hkept
    · rw [hsta, Function.update_of_ne hother]
      exact hkept

/-- The submission of `packet` returns with success: it is written or parked behind the others. -/
theorem deliver (h : OrderInv s) {packet : Packet θ μ}
    (hpacket : (s.pc packet.thread).packet? = some packet)
    (hsta : s'.sta = Function.update s.sta packet.ipsta sta)
    (hpc : s'.pc = Function.update s.pc packet.thread .idle)
    (hsubmitted : s'.submitted = s.submitted) (haccepted : s'.accepted = s.accepted ++ [packet])
    (hcreated : s'.created = s.created)
    (hpending : ∀ cls, ∀ m ∈ sta.pending cls, m ∈ (s.sta packet.ipsta).pending cls ∨
      m.packet = packet ∧ packet.cls = cls)
    (hconn : sta.isConnected = (s.sta packet.ipsta).isConnected)
    (htrack : ∀ cls t, sta.track cls t = (s.sta packet.ipsta).track cls t ++
      if packet.isOf cls t then [packet] else []) : OrderInv s' := by
  obtain ⟨-, hnumber, hknown, hlast⟩ := h.inFlight packet.thread packet hpacket
  have hline : ∀ other cls t, ∀ p ∈ (s'.sta other).track cls t, p ∈ (s.sta other).track cls t ∨
      p = packet ∧ packet.isOf cls t = true ∧ other = packet.ipsta := by
    intro other cls t p hp
    rw [hsta] at hp
    by_cases hother : other = packet.ipsta
    · rw [hother, Function.update_self, htrack] at hp
      rcases List.mem_append.mp hp with hp | hp
      · exact .inl (hother ▸ hp)
      · split at hp
        · next hof => exact .inr ⟨List.mem_singleton.mp hp, hof, hother⟩
        · cases hp
    · rw [Function.update_of_ne hother] at hp
      exact .inl hp
  have hothers : ∀ t other, (s'.pc t).packet? = some other → t ≠ packet.thread ∧
      s'.pc t = s.pc t := by
    intro t other hother
    rw [hpc] at hother ⊢
    by_cases ht : t = packet.thread
    · rw [ht, Function.update_self] at hother
      cases hother
    · exact ⟨ht, Function.update_of_ne ht ..⟩
  refine ⟨?_, ?_, ?_, ?_, ?_, ?_⟩
  · intro other cls m hm
    rw [hsta] at hm
    by_cases hother : other = packet.ipsta
    · rw [hother, Function.update_self] at hm
      rcases hpending cls m hm with hm | ⟨rfl, hcls⟩
      · exact h.parked _ cls m hm
      · exact hcls
    · rw [Function.update_of_ne hother] at hm
      exact h.parked other cls m hm
  · intro other cls t
    rw [hsta]
    by_cases hother : other = packet.ipsta
    · rw [hother, Function.update_self, htrack]
      split
      · next hof =>
        obtain ⟨rfl, rfl⟩ := isOf_iff.mp hof
        refine List.pairwise_append.mpr ⟨h.sorted .., List.pairwise_singleton .., ?_⟩
        intro p hp q hq
        rw [List.mem_singleton.mp hq]
        exact hlast p hp
      · rw [List.append_nil]
        exact h.sorted ..
    · rw [Function.update_of_ne hother]
      exact h.sorted other cls t
  · intro other cls t p hp
    rw [hsubmitted]
    rcases hline other cls t p hp with hp | ⟨rfl, -⟩
    · exact h.bound other cls t p hp
    · exact hnumber
  · intro t other hother
    obtain ⟨ht, hsame⟩ := hothers t other hother
    rw [hsame] at hother
    obtain ⟨hthread, hlt, hknown', hlast'⟩ := h.inFlight t other hother
    rw [hsubmitted, hcreated]
    refine ⟨hthread, hlt, hknown', fun p hp => ?_⟩
    rcases hline _ _ _ p hp with hp | ⟨rfl, hof, -⟩
    · exact hlast' p hp
    · exact absurd (isOf_iff.mp hof).1.symm ht
  · intro t other hsend m hm
    obtain ⟨ht, hsame⟩ := hothers t other (by rw [hsend]; rfl)
    rw [hsame] at hsend
    rw [hsta] at hm
    by_cases hipsta : other.ipsta = packet.ipsta
    · rw [hipsta, Function.update_self] at hm
      rcases hpending _ m hm with hm | ⟨rfl, -⟩
      · exact h.direct t other hsend m (hipsta ▸ hm)
      · exact Ne.symm ht
    · rw [Function.update_of_ne hipsta] at hm
      exact h.direct t other hsend m hm
  · intro other hother
    rw [haccepted] at hother
    rw [hcreated, hsta]
    rcases List.mem_append.mp hother with hother | hother
    · obtain ⟨hknown', hkept⟩ := h.kept other hother
      refine ⟨hknown', ?_⟩
      by_cases hipsta : other.ipsta = packet.ipsta
      · rw [hipsta, Function.update_self, hconn, htrack, List.mem_append, ← hipsta]
        exact hkept.imp_left .inl
      · rw [Function.update_of_ne hipsta]
        exact hkept
    · rw [List.mem_singleton.mp hother, Function.update_self, htrack]
      exact ⟨hknown, .inl (List.mem_append_right _ (by simp [Packet.isOf]))⟩

/-- A thread gives its packet up, or goes on to park it. -/
theorem goOn (h : OrderInv s) (hsta : s'.sta = s.sta) (hsubmitted : s'.submitted = s.submitted)
    (haccepted : s'.accepted = s.accepted) (hcreated : s'.created = s.created)
    (hpacket : ∀ t packet, (s'.pc t).packet? = some packet → (s.pc t).packet? = some packet)
    (hsend : ∀ t packet, s'.pc t = .send packet → s.pc t = .send packet) : OrderInv s' where
  parked := hsta ▸ h.parked
  sorted := hsta ▸ h.sorted
  bound := by
    rw [hsta, hsubmitted]
    exact h.bound
  inFlight t packet hp := by
    rw [hsta, hsubmitted, hcreated]
    exact h.inFlight t packet (hpacket t packet hp)
  direct t packet hp := hsta ▸ h.direct t packet (hsend t packet hp)
  kept := by
    rw [hsta, haccepted, hcreated]
    exact h.kept

theorem setPc (h : OrderInv s) {t : Option θ} {pc : SendPc θ μ}
    (hpacket : ∀ packet, pc.packet? = some packet → (s.pc t).packet? = some packet)
    (hsend : ∀ packet, pc ≠ .send packet) : OrderInv (s.setPc t pc) := by
  refine h.goOn rfl rfl rfl rfl (fun u packet hp => ?_) (fun u packet hp => ?_)
  · replace hp : (Function.update s.pc t pc u).packet? = some packet := hp
    by_cases hu : u = t
    · rw [hu] at hp ⊢
      rw [Function.update_self] at hp
      exact hpacket packet hp
    · rwa [Function.update_of_ne hu] at hp
  · replace hp : Function.update s.pc t pc u = .send packet := hp
    by_cases hu : u = t
    · rw [hu, Function.update_self] at hp
      exact absurd hp (hsend packet)
    · rwa [Function.update_of_ne hu] at hp

theorem waveIpcsAcceptNewClient (h : OrderInv s) : OrderInv s.waveIpcsAcceptNewClient := by
  rw [WvIpserver.waveIpcsAcceptNewClient]
  cases (List.range ipcClientArrSize).find? fun i => (s.stations i).isNone with
  | none => exact h
  | some i =>
    have hold : ∀ {other : Station}, other < s.created →
        Function.update s.sta s.created .fresh other = s.sta other := fun hlt =>
      Function.update_of_ne (Nat.ne_of_lt hlt) ..
    have hfresh : ∀ cls t, (WvIpstation.fresh : WvIpstation θ μ).track cls t = [] := fun _ _ => rfl
    refine ⟨?_, ?_, ?_, ?_, ?_, ?_⟩
    · intro other cls m hm
      replace hm : m ∈ (Function.update s.sta s.created .fresh other).pending cls := hm
      by_cases hother : other = s.created
      · rw [hother, Function.update_self] at hm
        cases hm
      · rw [Function.update_of_ne hother] at hm
        exact h.parked other cls m hm
    · intro other cls t
      show ((Function.update s.sta s.created .fresh other).track cls t).Pairwise _
      by_cases hother : other = s.created
      · rw [hother, Function.update_self, hfresh]
        exact .nil
      · rw [Function.update_of_ne hother]
        exact h.sorted other cls t
    · intro other cls t p hp
      replace hp : p ∈ (Function.update s.sta s.created .fresh other).track cls t := hp
      by_cases hother : other = s.created
      · rw [hother, Function.update_self, hfresh] at hp
        cases hp
      · rw [Function.update_of_ne hother] at hp
        exact h.bound other cls t p hp
    · intro t packet hp
      obtain ⟨hthread, hlt, hknown, hlast⟩ := h.inFlight t packet hp
      refine ⟨hthread, hlt, Nat.lt_succ_of_lt hknown, ?_⟩
      show ∀ p ∈ (Function.update s.sta s.created .fresh packet.ipsta).track packet.cls t, _
      rw [hold hknown]
      exact hlast
    · intro t packet hp
      show ∀ m ∈ (Function.update s.sta s.created .fresh packet.ipsta).pending packet.cls, _
      rw [hold (h.inFlight t packet (by rw [show s.pc t = .send packet from hp]; rfl)).2.2.1]
      exact h.direct t packet hp
    · intro packet hp
      obtain ⟨hknown, hkept⟩ := h.kept packet hp
      refine ⟨Nat.lt_succ_of_lt hknown, ?_⟩
      show packet ∈ (Function.update s.sta s.created .fresh packet.ipsta).track packet.cls _ ∨
        (Function.update s.sta s.created .fresh packet.ipsta).isConnected = false
      rw [hold hknown]
      exact hkept

/-- A thread submits a packet; it sends it directly only if none of its own is pending. -/
theorem submit (h : OrderInv s) {t : Option θ} {cls : PacketClass} (hknown : ipsta < s.created)
    (hdirect : (s.sta ipsta).hasPendingMsgs = false →
      ∀ m ∈ (s.sta ipsta).pending cls, m.packet.thread ≠ t) (msg : μ) :
    OrderInv (s.submit t ipsta cls msg) := by
  have hpc : ∀ u, (s.submit t ipsta cls msg).pc u = if u = t then
      (if (s.sta ipsta).hasPendingMsgs then .wouldBlock ⟨t, ipsta, cls, s.submitted, msg⟩
        else .send ⟨t, ipsta, cls, s.submitted, msg⟩) else s.pc u := fun u => by
    simp only [WvIpserver.submit, WvIpserver.setPc, Function.update_apply]
  refine ⟨h.parked, h.sorted, ?_, ?_, ?_, h.kept⟩
  · exact fun other cls t p hp => Nat.lt_succ_of_lt (h.bound other cls t p hp)
  · intro u packet hp
    rw [hpc] at hp
    split at hp
    · next hu =>
      have hpacket : packet = ⟨t, ipsta, cls, s.submitted, msg⟩ := by
        split at hp <;> exact (Option.some.inj hp).symm
      subst hu hpacket
      exact ⟨rfl, Nat.lt_succ_self _, hknown, h.bound ipsta cls u⟩
    · obtain ⟨hthread, hlt, hrest⟩ := h.inFlight u packet hp
      exact ⟨hthread, Nat.lt_succ_of_lt hlt, hrest⟩
  · intro u packet hp
    rw [hpc] at hp
    split at hp
    · next hu =>
      split at hp
      · cases hp
      · next hflag =>
        cases hp
        subst hu
        exact hdirect (Bool.eq_false_of_not_eq_true hflag)
    · exact h.direct u packet hp

/-- The packet is written at once, and its submission returns. -/
theorem write (h : OrderInv s) {packet : Packet θ μ} (hsend : s.pc packet.thread = .send packet) :
    OrderInv ((s.write packet).returns packet .success) := by
  refine h.deliver (by rw [hsend]; rfl) rfl rfl rfl rfl rfl (fun _ _ hm => .inl hm) rfl ?_
  intro cls t
  have hnone : packet.isOf cls t = true →
      ((s.sta packet.ipsta).pending cls).filter (fun m => m.packet.isOf cls t) = [] := by
    intro hof
    obtain ⟨rfl, rfl⟩ := isOf_iff.mp hof
    refine List.filter_eq_nil_iff.mpr fun m hm hm' => ?_
    exact h.direct _ packet hsend m hm (isOf_iff.mp hm').1
  simp only [WvIpstation.track, List.filter_append, List.filter_map, List.append_assoc,
    Function.comp_def]
  split
  · next hof => simp [hnone hof, hof]
  · next hof => simp [hof]

/-- The packet is parked, and its submission returns. -/
theorem park (h : OrderInv s) {packet : Packet θ μ}
    (hpacket : (s.pc packet.thread).packet? = some packet) :
    OrderInv ((s.park packet true).returns packet .success) := by
  refine h.deliver hpacket rfl rfl rfl rfl rfl (fun cls m hm => ?_) rfl (fun cls t => ?_)
  · by_cases hcls : cls = packet.cls
    · rw [hcls] at hm ⊢
      simp only [WvIpstation.setPending, Function.update_self, if_true] at hm
      rcases List.mem_append.mp hm with hm | hm
      · exact .inl hm
      · exact .inr ⟨by rw [List.mem_singleton.mp hm], rfl⟩
    · simp only [WvIpstation.setPending, Function.update_of_ne hcls] at hm
      exact .inl hm
  · by_cases hcls : cls = packet.cls
    · rw [hcls]
      simp only [WvIpstation.track, WvIpstation.setPending, Function.update_self, if_true,
        List.map_append, List.filter_append, List.append_assoc, List.map_cons, List.map_nil,
        List.filter_singleton, cond_eq_ite]
    · have hforeign : packet.isOf cls t ≠ true := fun hof => hcls (isOf_iff.mp hof).2.symm
      rw [if_neg hforeign, List.append_nil]
      simp only [WvIpstation.track, WvIpstation.setPending, Function.update_of_ne hcls]

theorem waveIpcsSendWouldBlock (h : OrderInv s) {packet : Packet θ μ}
    (hpacket : (s.pc packet.thread).packet? = some packet) {dup node : Bool}
    (hnode : dup = true → (s.sta packet.ipsta).isConnected = true →
      s.limitReached packet.ipsta = false → node = true) :
    OrderInv ((s.waveIpcsSendWouldBlock packet dup node).2.returns packet
      (s.waveIpcsSendWouldBlock packet dup node).1) := by
  have hgiven : ∀ {s' : WvIpserver θ μ}, s'.sta = s.sta → s'.pc = s.pc →
      s'.submitted = s.submitted → s'.accepted = s.accepted → s'.created = s.created →
      ∀ {ret : WvIpcRet}, ret ≠ .success → OrderInv (s'.returns packet ret) := by
    intro s' hsta hpc hsubmitted haccepted hcreated ret hret
    have hidle : OrderInv (s.setPc packet.thread .idle) :=
      h.setPc (fun _ hp => by cases hp) (fun _ hp => by cases hp)
    refine hidle.goOn hsta hsubmitted ?_ hcreated (fun u p hp => ?_) (fun u p hp => ?_)
    · rw [WvIpserver.returns, if_neg hret]
      exact haccepted
    · rwa [WvIpserver.returns, WvIpserver.setPc, hpc] at hp
    · rwa [WvIpserver.returns, WvIpserver.setPc, hpc] at hp
  rw [WvIpserver.waveIpcsSendWouldBlock]
  split
  · refine hgiven ?_ ?_ ?_ ?_ ?_ (show WvIpcRet.error ≠ .success by decide) <;> rfl
  · next hdup =>
    split
    · refine hgiven ?_ ?_ ?_ ?_ ?_ (show WvIpcRet.disconnected ≠ .success by decide) <;> rfl
    · next hconn =>
      split
      · refine hgiven ?_ ?_ ?_ ?_ ?_ (show WvIpcRet.error ≠ .success by decide) <;> rfl
      · next hlimit =>
        rw [Bool.not_eq_false] at hdup hconn
        rw [hnode hdup hconn (Bool.eq_false_of_not_eq_true hlimit)]
        exact h.park hpacket

/-- Nothing changes in what is to be written to a station. -/
theorem keep (h : OrderInv s) (hsta : s'.sta = Function.update s.sta ipsta sta)
    (hpc : s'.pc = s.pc) (hsubmitted : s'.submitted = s.submitted)
    (haccepted : s'.accepted = s.accepted) (hcreated : s'.created = s.created)
    (hconn : sta.isConnected = (s.sta ipsta).isConnected)
    (hwritten : sta.written = (s.sta ipsta).written)
    (hpending : sta.pending = (s.sta ipsta).pending) : OrderInv s' :=
  h.change hsta hpc hsubmitted haccepted hcreated (fun _ => hpending ▸ List.Subset.refl _)
    (fun cls t => track_congr hwritten hpending cls t ▸ List.Sublist.refl _)
    (.inr ⟨hconn, track_congr hwritten hpending⟩)

/-- The station is not connected any more, or none of what is parked goes with the reference. -/
theorem waveIpcsStaDecref (h : OrderInv s)
    (hrefs : (s.sta ipsta).isConnected = true → (s.sta ipsta).refcnt - 1 ≠ 0) :
    OrderInv (s.waveIpcsStaDecref ipsta) := by
  by_cases hlast : (s.sta ipsta).refcnt - 1 = 0
  · have hgone : (s.sta ipsta).isConnected = false :=
      Bool.eq_false_of_not_eq_true fun hc => hrefs hc hlast
    rw [WvIpserver.waveIpcsStaDecref, if_pos hlast]
    refine h.change rfl rfl rfl rfl rfl (fun _ => List.nil_subset _) (fun cls t => ?_)
      (.inl hgone)
    apply track_sublist
    · rfl
    · exact List.nil_sublist _
  · rw [WvIpserver.waveIpcsStaDecref, if_neg hlast]
    exact h.keep rfl rfl rfl rfl rfl rfl rfl rfl

theorem remove (h : OrderInv s) (i : Nat) : OrderInv (s.remove i ipsta) := by
  have hgone : OrderInv { s.setSta ipsta { s.sta ipsta with isConnected := false } with
      stationHasPendingMsgs := s.stationHasPendingMsgs - (s.sta ipsta).numPending } :=
    h.change rfl rfl rfl rfl rfl (fun _ => List.Subset.refl _)
      (fun _ _ => List.Sublist.refl _) (.inl rfl)
  have hdecref := @waveIpcsStaDecref _ _ _ _ ipsta hgone fun hc => by
    simp [WvIpserver.setSta] at hc
  exact hdecref.goOn rfl rfl rfl rfl (fun _ _ hp => hp) (fun _ _ hp => hp)

theorem resendTurn (h : OrderInv s) (i : Nat) (cls : PacketClass) (failedOnFirst : Bool)
    (ret : WvIpcRet) : OrderInv (s.resendTurn i ipsta cls failedOnFirst ret) := by
  rw [WvIpserver.resendTurn]
  cases hpending : (s.sta ipsta).pending cls with
  | nil => exact h.goOn rfl rfl rfl rfl (fun _ _ hp => hp) (fun _ _ hp => hp)
  | cons m rest =>
    have hcls : m.packet.cls = cls := h.parked ipsta cls m (hpending ▸ List.mem_cons_self)
    dsimp only
    split
    · have htrack : ∀ (sta : WvIpstation θ μ), sta.written = (s.sta ipsta).written ++ [m.packet] →
          sta.pending = Function.update (s.sta ipsta).pending cls rest →
          ∀ other t, sta.track other t = (s.sta ipsta).track other t :=
        fun sta hwritten hrest => track_resent hpending hcls hwritten hrest
      refine h.change rfl rfl rfl rfl rfl (fun other => ?_) (fun other t => ?_)
        (.inr ⟨rfl, htrack _ rfl rfl⟩)
      · show Function.update (s.sta ipsta).pending cls rest other ⊆ _
        by_cases hother : other = cls
        · rw [hother, Function.update_self, hpending]
          exact List.subset_cons_self m rest
        · rw [Function.update_of_ne hother]
          exact List.Subset.refl _
      · rw [htrack _ rfl rfl]
    · exact h.keep rfl rfl rfl rfl rfl rfl rfl rfl

theorem roundStep (h : OrderInv s) (ret : WvIpcRet) (round : Round) :
    OrderInv (s.roundStep ret round) := by
  have hgo : ∀ {s' : WvIpserver θ μ}, OrderInv s' → ∀ other : Option Round,
      OrderInv { s' with round := other } := fun h' _ =>
    h'.goOn rfl rfl rfl rfl (fun _ _ hp => hp) (fun _ _ hp => hp)
  cases round with
  | slot i =>
    rw [WvIpserver.roundStep]
    split
    · cases s.stations i with
      | none => exact hgo h _
      | some ipsta =>
        dsimp only
        split
        · exact hgo h _
        · exact hgo h _
    · exact hgo h _
  | station i ipsta stage =>
    cases stage with
    | resend cls failedOnFirst => exact h.resendTurn i cls failedOnFirst ret
    | setFlag => exact h.keep rfl rfl rfl rfl rfl rfl rfl rfl
    | mergeFlag => exact h.keep rfl rfl rfl rfl rfl rfl rfl rfl
    | removeStuck =>
      rw [WvIpserver.roundStep]
      split
      · exact hgo (h.remove i) _
      · exact hgo h _

theorem step {a : OutputAction θ μ} (h : OrderInv s) (haccount : AccountInv s)
    (hnode : NodesFound s a) (hok : NotOverlooked s a) (hst : s.step a = some s') :
    OrderInv s' := by
  cases a with
  | accept =>
    simp only [WvIpserver.step, Option.ite_none_right_eq_some] at hst
    obtain ⟨-, hst⟩ := hst
    cases hst
    exact h.waveIpcsAcceptNewClient
  | submit t ipsta cls msg =>
    simp only [WvIpserver.step] at hst
    cases hpc : s.pc t with
    | idle =>
      simp only [hpc, Option.ite_none_right_eq_some] at hst
      obtain ⟨⟨hknown, -⟩, hst⟩ := hst
      cases hst
      exact h.submit hknown (haccount.direct hok) msg
    | send packet => simp [hpc] at hst
    | wouldBlock packet => simp [hpc] at hst
  | send t ret =>
    simp only [WvIpserver.step] at hst
    cases hpc : s.pc t with
    | idle => simp [hpc] at hst
    | wouldBlock packet => simp [hpc] at hst
    | send packet =>
      obtain ⟨rfl, -⟩ := h.inFlight t packet (by rw [hpc]; rfl)
      simp only [hpc] at hst
      cases ret with
      | success =>
        cases hst
        exact h.write hpc
      | cmdWouldBlock =>
        cases hst
        exact h.setPc (fun p hp => by rw [hpc]; exact hp) (fun p hp => by cases hp)
      | _ =>
        cases hst
        exact h.setPc (fun p hp => by cases hp) (fun p hp => by cases hp)
  | sendWouldBlock t dup node =>
    simp only [WvIpserver.step] at hst
    cases hpc : s.pc t with
    | idle => simp [hpc] at hst
    | send packet => simp [hpc] at hst
    | wouldBlock packet =>
      obtain ⟨rfl, -⟩ := h.inFlight t packet (by rw [hpc]; rfl)
      cases hround : s.round with
      | some round => simp [hpc, hround] at hst
      | none =>
        simp only [hpc, hround] at hst
        cases hst
        exact h.waveIpcsSendWouldBlock (by rw [hpc]; rfl) (hnode packet hpc)
  | startRound =>
    simp only [WvIpserver.step, Option.ite_none_right_eq_some] at hst
    obtain ⟨-, hst⟩ := hst
    cases hst
    exact h.goOn rfl rfl rfl rfl (fun _ _ hp => hp) (fun _ _ hp => hp)
  | round ret =>
    obtain ⟨round, -, rfl⟩ := Option.map_eq_some_iff.mp hst
    exact h.roundStep ret round
  | disconnect i =>
    simp only [WvIpserver.step, Option.ite_none_right_eq_some] at hst
    obtain ⟨-, hst⟩ := hst
    obtain ⟨ipsta, -, rfl⟩ := Option.map_eq_some_iff.mp hst
    exact h.remove i
  | incref ipsta =>
    simp only [WvIpserver.step, Option.ite_none_right_eq_some] at hst
    obtain ⟨-, hst⟩ := hst
    cases hst
    exact h.keep rfl rfl rfl rfl rfl rfl rfl rfl
  | decref ipsta =>
    simp only [WvIpserver.step, Option.ite_none_right_eq_some] at hst
    obtain ⟨hrefs, hst⟩ := hst
    cases hst
    refine h.waveIpcsStaDecref fun hconn => ?_
    rw [WvIpstation.upperRefs, if_pos hconn] at hrefs
    omega

end OrderInv

theorem OutputOrdered.ofInv {s : WvIpserver θ μ} (h : OrderInv s) : OutputOrdered s where
  order ipsta cls t := by
    have hsorted := h.sorted ipsta cls t
    rw [WvIpstation.track, List.filter_append] at hsorted
    exact (List.pairwise_append.mp hsorted).1
  kept packet hp := by
    rcases (h.kept packet hp).2 with htrack | hgone
    · have hmem := List.mem_of_mem_filter htrack
      exact (List.mem_append.mp hmem).imp_right .inl
    · exact .inr (.inr hgone)

/-- The output of the stations is in order in every run in which the lists never lack a node and no
thread overlooks an event of its own. -/
theorem outputOrder {as : List (OutputAction θ μ)} {s : WvIpserver θ μ}
    (hok : Along WvIpserver.step (fun s a => NodesFound s a ∧ NotOverlooked s a) .init as)
    (hrun : exec WvIpserver.step .init as = some s) : OutputOrdered s := by
  have hstep : ∀ {s a} {s' : WvIpserver θ μ}, AccountInv s ∧ OrderInv s →
      NodesFound s a ∧ NotOverlooked s a → s.step a = some s' → AccountInv s' ∧ OrderInv s' :=
    fun h hok hst => ⟨h.1.step hok.1 hst, h.2.step h.1 hok.1 hok.2 hst⟩
  exact .ofInv (exec_along hstep ⟨.init, .init⟩ hok hrun).2

/-- Two events are parked, two resend rounds send them again, and a third one goes out directly. -/
def resentRun : List (OutputAction Unit Unit) :=
  drainedRun ++ .startRound :: List.replicate 43 (.round .success) ++
    [.submit (some ()) 0 .event (), .send (some ()) .success]

theorem outputOrder_resentRun : ∃ s,
    exec WvIpserver.step (.init : WvIpserver Unit Unit) resentRun = some s ∧
      (s.sta 0).written.map Packet.number = [0, 1, 2] ∧ OutputOrdered s := by
  have hnodes : Along WvIpserver.step NodesFound .init resentRun := by
    apply along_of_mem
    simp [resentRun, drainedRun, parkedRun, NodesFound]
  have hnone : Along WvIpserver.step NotOverlooked .init resentRun := by decide +kernel
  exact ⟨_, rfl, rfl, outputOrder (hnodes.and hnone) rfl⟩

/-- A resend round leaves an event pending; before it has set the flag again, the same thread
submits another one. -/
def overtakingRun : List (OutputAction Unit Unit) :=
  parkedRun true ++ [.startRound, .round .success, .round .success, .round .cmdWouldBlock,
    .round .success, .submit (some ()) 0 .event (), .send (some ()) .success] ++
    List.replicate 38 (.round .success) ++ .startRound :: List.replicate 3 (.round .success)

theorem event_overtakes : ¬ ∀ (as : List (OutputAction Unit Unit)) (s : WvIpserver Unit Unit),
    exec WvIpserver.step .init as = some s → OutputOrdered s := by
  intro h
  have horder : List.Pairwise (fun p q : Packet Unit Unit => p.number < q.number)
      [⟨some (), 0, .event, 1, ()⟩, ⟨some (), 0, .event, 0, ()⟩] :=
    (h overtakingRun _ rfl).order 0 .event (some ())
  simp at horder

end Dwpal.Ipc
