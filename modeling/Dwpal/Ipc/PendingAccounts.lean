import Dwpal.Ipc.Output

/-! The counter of the pending messages and the flags of the stations agree with the lists whenever
the pending lock is free. -/

namespace Dwpal.Ipc

open Machine Tally

variable {θ μ : Type}

/-- What a station adds to `station_has_pending_msgs`. -/
def WvIpstation.counted (sta : WvIpstation θ μ) : Int :=
  if sta.isConnected then sta.numPending else 0

/-- The counter counts the lists of the connected stations, and their flags tell whether there is
something on them. -/
structure PendingAccounted (s : WvIpserver θ μ) : Prop where
  total : s.stationHasPendingMsgs =
    ∑ ipsta ∈ (Finset.range s.created).filter fun ipsta => (s.sta ipsta).isConnected = true,
      (((s.sta ipsta).pending .reply).length + ((s.sta ipsta).pending .event).length : Int)
  flags : ∀ ipsta < s.created, (s.sta ipsta).isConnected = true →
    ((s.sta ipsta).hasPendingMsgs = true ↔
      (s.sta ipsta).pending .reply ≠ [] ∨ (s.sta ipsta).pending .event ≠ [])

/-- There is a node for every message that `wave_ipcs_send_would_block` comes to push. -/
def NodesFound (s : WvIpserver θ μ) : OutputAction θ μ → Prop
  | .sendWouldBlock t dup node => ∀ packet, s.pc t = .wouldBlock packet → dup = true →
      (s.sta packet.ipsta).isConnected = true → s.limitReached packet.ipsta = false → node = true
  | _ => True

/-- What a resend round is doing with `ipsta`. -/
def Round.stageOf (ipsta : Station) : Option Round → Option RoundStage
  | some (.station _ current stage) => if current = ipsta then some stage else none
  | _ => none

/-- The flag of a station, by what a resend round is doing with it. -/
def FlagOk (sta : WvIpstation θ μ) : Option RoundStage → Prop
  | some (.resend _ _) | some .setFlag => sta.hasPendingMsgs = true
  | some .mergeFlag => sta.hasPendingMsgs = !(sta.pending .reply).isEmpty
  | some .removeStuck | none => (sta.hasPendingMsgs = false → ∀ cls, sta.pending cls = []) ∧
      (sta.isConnected = true → sta.hasPendingMsgs = true → ∃ cls, sta.pending cls ≠ [])

structure AccountInv (s : WvIpserver θ μ) : Prop where
  total : s.stationHasPendingMsgs = tally WvIpstation.counted s.sta s.created
  known : ∀ ipsta, (s.sta ipsta).isConnected = true → ipsta < s.created
  slots : ∀ i ipsta, s.stations i = some ipsta → (s.sta ipsta).isConnected = true
  distinct : ∀ i j ipsta, s.stations i = some ipsta → s.stations j = some ipsta → i = j
  current : ∀ i ipsta stage, s.round = some (.station i ipsta stage) → s.stations i = some ipsta
  flags : ∀ ipsta, FlagOk (s.sta ipsta) (Round.stageOf ipsta s.round)

@[simp] theorem setPending_self (sta : WvIpstation θ μ) (cls : PacketClass)
    (msgs : List (PendingMsg θ μ)) : (sta.setPending cls msgs).pending cls = msgs :=
  Function.update_self ..

theorem setPending_of_ne (sta : WvIpstation θ μ) {cls other : PacketClass} (hne : other ≠ cls)
    (msgs : List (PendingMsg θ μ)) : (sta.setPending cls msgs).pending other = sta.pending other :=
  Function.update_of_ne hne ..

theorem numPending_setPending (sta : WvIpstation θ μ) (cls : PacketClass)
    (msgs : List (PendingMsg θ μ)) :
    (sta.setPending cls msgs).numPending + (sta.pending cls).length =
      sta.numPending + msgs.length := by
  cases cls with
  | reply =>
    rw [WvIpstation.numPending, setPending_self, setPending_of_ne _ (by decide),
      WvIpstation.numPending]
    omega
  | event =>
    rw [WvIpstation.numPending, setPending_self, setPending_of_ne _ (by decide),
      WvIpstation.numPending]
    omega

theorem stageOf_none (ipsta : Station) : Round.stageOf ipsta none = none := rfl

theorem stageOf_slot (ipsta : Station) (i : Nat) :
    Round.stageOf ipsta (some (.slot i)) = none := rfl

theorem stageOf_self (ipsta : Station) (i : Nat) (stage : RoundStage) :
    Round.stageOf ipsta (some (.station i ipsta stage)) = some stage := if_pos rfl

theorem stageOf_of_ne {ipsta current : Station} (hne : ipsta ≠ current) (i : Nat)
    (stage : RoundStage) : Round.stageOf ipsta (some (.station i current stage)) = none :=
  if_neg (Ne.symm hne)

theorem round_of_serverFree {s : WvIpserver θ μ} (hfree : s.serverFree = true) :
    s.round = none := by
  rw [WvIpserver.serverFree] at hfree
  split at hfree
  · next hround => exact hround
  · cases hfree

namespace AccountInv

variable {s s' : WvIpserver θ μ} {ipsta : Station} {sta : WvIpstation θ μ}

theorem init : AccountInv (WvIpserver.init : WvIpserver θ μ) where
  total := rfl
  known _ h := by cases h
  slots _ _ h := by cases h
  distinct _ _ _ h := by cases h
  current _ _ _ h := by cases h
  flags _ := ⟨fun _ _ => rfl, fun h => by cases h⟩

/-- The counter follows what becomes of the lists of one station. -/
theorem counted (h : AccountInv s)
    (hconn : sta.isConnected = true → (s.sta ipsta).isConnected = true)
    {total : Int} (htotal : total + (s.sta ipsta).counted = s.stationHasPendingMsgs + sta.counted) :
    total = tally WvIpstation.counted (Function.update s.sta ipsta sta) s.created := by
  by_cases hlt : ipsta < s.created
  · have hupdate := tally_update WvIpstation.counted s.sta hlt sta
    have hbefore := h.total
    omega
  · have hold : (s.sta ipsta).isConnected ≠ true := fun hc => hlt (h.known ipsta hc)
    have hnew : sta.isConnected ≠ true := fun hc => hold (hconn hc)
    rw [WvIpstation.counted, WvIpstation.counted, if_neg hold, if_neg hnew] at htotal
    rw [tally_update_beyond _ _ (Nat.le_of_not_lt hlt), ← h.total]
    omega

/-- One station changes, and stays connected if it was. -/
theorem change (h : AccountInv s) (hsta : s'.sta = Function.update s.sta ipsta sta)
    (hstations : s'.stations = s.stations) (hcreated : s'.created = s.created)
    (hconn : sta.isConnected = (s.sta ipsta).isConnected)
    (htotal : s'.stationHasPendingMsgs + (s.sta ipsta).counted =
      s.stationHasPendingMsgs + sta.counted)
    (hround : ∀ i other stage, s'.round = some (.station i other stage) →
      s.stations i = some other)
    (hothers : ∀ other ≠ ipsta, Round.stageOf other s'.round = Round.stageOf other s.round)
    (hflag : FlagOk sta (Round.stageOf ipsta s'.round)) : AccountInv s' where
  total := by
    rw [hsta, hcreated]
    exact h.counted (fun hc => hconn ▸ hc) htotal
  known other hc := by
    rw [hcreated]
    refine h.known other ?_
    by_cases hother : other = ipsta
    · rwa [hother, ← hconn, ← Function.update_self ipsta sta s.sta, ← hsta, ← hother]
    · rwa [hsta, Function.update_of_ne hother] at hc
  slots i other hslot := by
    rw [hstations] at hslot
    have hc := h.slots i other hslot
    by_cases hother : other = ipsta
    · rw [hsta, hother, Function.update_self, hconn, ← hother]
      exact hc
    · rwa [hsta, Function.update_of_ne hother]
  distinct := hstations ▸ h.distinct
  current i other stage hr := hstations ▸ hround i other stage hr
  flags other := by
    by_cases hother : other = ipsta
    · rw [hother, hsta, Function.update_self]
      exact hflag
    · rw [hsta, Function.update_of_ne hother, hothers other hother]
      exact h.flags other

/-- No station changes. -/
theorem goOn (h : AccountInv s) (ipsta : Station) (hsta : s'.sta = s.sta)
    (hstations : s'.stations = s.stations) (hcreated : s'.created = s.created)
    (htotal : s'.stationHasPendingMsgs = s.stationHasPendingMsgs)
    (hround : ∀ i other stage, s'.round = some (.station i other stage) →
      s.stations i = some other)
    (hothers : ∀ other ≠ ipsta, Round.stageOf other s'.round = Round.stageOf other s.round)
    (hflag : FlagOk (s.sta ipsta) (Round.stageOf ipsta s'.round)) : AccountInv s' :=
  h.change (hsta.trans (Function.update_eq_self ipsta s.sta).symm) hstations hcreated rfl
    (by rw [htotal]) hround hothers hflag

/-- The threads and what is known of the packets may change by themselves. -/
theorem same (h : AccountInv s) (hsta : s'.sta = s.sta) (hstations : s'.stations = s.stations)
    (hcreated : s'.created = s.created)
    (htotal : s'.stationHasPendingMsgs = s.stationHasPendingMsgs)
    (hround : s'.round = s.round) : AccountInv s' :=
  h.goOn 0 hsta hstations hcreated htotal (fun i other stage hr => h.current i other stage
    (hround ▸ hr)) (fun other _ => by rw [hround]) (by rw [hround]; exact h.flags 0)

theorem waveIpcsAcceptNewClient (h : AccountInv s) (hround : s.round = none) :
    AccountInv s.waveIpcsAcceptNewClient := by
  rw [WvIpserver.waveIpcsAcceptNewClient]
  cases hfind : (List.range ipcClientArrSize).find? fun i => (s.stations i).isNone with
  | none => exact h
  | some i =>
    have hold : ∀ other, (s.sta other).isConnected = true → other ≠ s.created := fun other hc =>
      Nat.ne_of_lt (h.known other hc)
    have hslot : ∀ j other, j ≠ i →
        Function.update s.stations i (some s.created) j = some other → s.stations j = some other :=
      fun j other hj hslot => by rwa [Function.update_of_ne hj] at hslot
    refine ⟨?_, ?_, ?_, ?_, ?_, ?_⟩
    · show s.stationHasPendingMsgs = tally _ (Function.update s.sta s.created .fresh)
        (s.created + 1)
      rw [tally_new, h.total]
      simp [WvIpstation.counted, WvIpstation.numPending, WvIpstation.fresh]
    · intro other hc
      by_cases hother : other = s.created
      · rw [hother]
        exact Nat.lt_succ_self _
      · replace hc : (Function.update s.sta s.created .fresh other).isConnected = true := hc
        rw [Function.update_of_ne hother] at hc
        exact Nat.lt_succ_of_lt (h.known other hc)
    · intro j other hj
      show (Function.update s.sta s.created .fresh other).isConnected = true
      by_cases hji : j = i
      · subst hji
        replace hj : Function.update s.stations j (some s.created) j = some other := hj
        rw [Function.update_self] at hj
        rw [← Option.some.inj hj, Function.update_self]
        rfl
      · have hc := h.slots j other (hslot j other hji hj)
        rwa [Function.update_of_ne (hold other hc)]
    · intro j k other hj hk
      have hnew : ∀ {l}, Function.update s.stations i (some s.created) l = some other → l ≠ i →
          other ≠ s.created := fun hl hli => hold other (h.slots _ other (hslot _ other hli hl))
      have hat : ∀ {l}, Function.update s.stations i (some s.created) l = some other → l = i →
          other = s.created := fun hl hli => by
        rw [hli, Function.update_self] at hl
        exact (Option.some.inj hl).symm
      by_cases hji : j = i
      · by_cases hki : k = i
        · rw [hji, hki]
        · exact absurd (hat hj hji) (hnew hk hki)
      · by_cases hki : k = i
        · exact absurd (hat hk hki) (hnew hj hji)
        · exact h.distinct j k other (hslot j other hji hj) (hslot k other hki hk)
    · intro j other stage hr
      replace hr : s.round = some (.station j other stage) := hr
      rw [hround] at hr
      cases hr
    · intro other
      show FlagOk (Function.update s.sta s.created .fresh other) (Round.stageOf other s.round)
      by_cases hother : other = s.created
      · rw [hother, Function.update_self, hround]
        exact ⟨fun _ _ => rfl, fun _ hflag => by cases hflag⟩
      · rw [Function.update_of_ne hother]
        exact h.flags other

/-- The socket of a station takes a packet. -/
theorem write [DecidableEq θ] (h : AccountInv s) (packet : Packet θ μ) :
    AccountInv (s.write packet) :=
  h.change rfl rfl rfl rfl rfl h.current (fun _ _ => rfl) (h.flags packet.ipsta)

/-- A packet is parked while no resend round is under way. -/
theorem park (h : AccountInv s) (hround : s.round = none) {packet : Packet θ μ}
    (hconn : (s.sta packet.ipsta).isConnected = true) : AccountInv (s.park packet true) := by
  refine h.change rfl rfl rfl rfl ?_ h.current (fun _ _ => rfl) ?_
  · have hnum := numPending_setPending (s.sta packet.ipsta) packet.cls
      ((s.sta packet.ipsta).pending packet.cls ++ [⟨s.dups, packet⟩])
    rw [List.length_append, List.length_singleton] at hnum
    simp only [WvIpserver.park, WvIpstation.counted, WvIpstation.setPending, WvIpstation.numPending,
      hconn, if_true] at hnum ⊢
    omega
  · show FlagOk _ (Round.stageOf packet.ipsta s.round)
    rw [hround]
    refine ⟨fun hflag => Bool.noConfusion hflag, fun _ _ => ⟨packet.cls, ?_⟩⟩
    simp [WvIpstation.setPending]

/-- No resend round is at a station that is gone. -/
theorem stageOf_gone (h : AccountInv s) (hgone : (s.sta ipsta).isConnected = false) :
    Round.stageOf ipsta s.round = none := by
  rcases hround : s.round with _ | (i | ⟨i, current, stage⟩)
  · rfl
  · rfl
  · refine stageOf_of_ne (fun hcurrent => ?_) i stage
    have hconn := h.slots i current (h.current i current stage hround)
    rw [← hcurrent, hgone] at hconn
    cases hconn

/-- A reference goes that is not the one of `stations`. -/
theorem waveIpcsStaDecref (h : AccountInv s)
    (hrefs : (s.sta ipsta).isConnected = true → 1 < (s.sta ipsta).refcnt) :
    AccountInv (s.waveIpcsStaDecref ipsta) := by
  by_cases hlast : (s.sta ipsta).refcnt - 1 = 0
  · have hgone : (s.sta ipsta).isConnected = false := by
      by_contra hc
      rw [Bool.not_eq_false] at hc
      have hmore := hrefs hc
      omega
    refine h.change rfl rfl rfl rfl ?_ h.current (fun _ _ => rfl) ?_
    · simp [WvIpserver.waveIpcsStaDecref, WvIpserver.setSta, WvIpstation.counted, hgone]
    · show FlagOk _ (Round.stageOf ipsta s.round)
      rw [h.stageOf_gone hgone, if_pos hlast]
      exact ⟨fun _ _ => rfl, fun hc => absurd (hgone.symm.trans hc) (by decide)⟩
  · rw [WvIpserver.waveIpcsStaDecref, if_neg hlast]
    exact h.change rfl rfl rfl rfl rfl h.current (fun _ _ => rfl) (h.flags ipsta)

/-- A station comes to its end and its slot is given up, while the round is at no other one. -/
theorem remove (h : AccountInv s) {i : Nat} (hslot : s.stations i = some ipsta)
    {round : Option Round} (hround : ∀ other, Round.stageOf other round = none)
    (hothers : ∀ other ≠ ipsta, Round.stageOf other s.round = none)
    (hflag : FlagOk (s.sta ipsta) none) :
    AccountInv { s.remove i ipsta with round := round } := by
  have hconn := h.slots i ipsta hslot
  generalize hs : s.remove i ipsta = s'
  obtain ⟨sta, hsta, hgone, hflags⟩ : ∃ sta, s'.sta = Function.update s.sta ipsta sta ∧
      sta.isConnected = false ∧ FlagOk sta none := by
    subst hs
    refine ⟨_, Function.update_idem .., ?_, ?_⟩
    · simp [WvIpserver.setSta]
    · refine ⟨fun hunset cls => ?_, fun hc => ?_⟩
      · simp only [WvIpserver.setSta, Function.update_self] at hunset ⊢
        split
        · rfl
        · exact hflag.1 hunset cls
      · simp [WvIpserver.setSta] at hc
  have hslots : ∀ j other, s'.stations j = some other → j ≠ i ∧ s.stations j = some other := by
    intro j other hj
    subst hs
    replace hj : Function.update s.stations i none j = some other := hj
    by_cases hji : j = i
    · rw [hji, Function.update_self] at hj
      cases hj
    · rw [Function.update_of_ne hji] at hj
      exact ⟨hji, hj⟩
  have hother : ∀ j other, s'.stations j = some other → other ≠ ipsta := fun j other hj hsame =>
    (hslots j other hj).1 (h.distinct j i ipsta (hsame ▸ (hslots j other hj).2) hslot)
  refine ⟨?_, ?_, ?_, ?_, ?_, ?_⟩
  · have hcreated : s'.created = s.created := hs ▸ rfl
    have htotal : s'.stationHasPendingMsgs = s.stationHasPendingMsgs - (s.sta ipsta).numPending :=
      hs ▸ rfl
    show s'.stationHasPendingMsgs = tally _ s'.sta s'.created
    rw [hsta, hcreated]
    refine h.counted (fun hc => absurd (hgone.symm.trans hc) (by decide)) ?_
    rw [WvIpstation.counted, WvIpstation.counted, if_pos hconn, hgone, htotal]
    simp
  · intro other hc
    have hcreated : s'.created = s.created := hs ▸ rfl
    show other < s'.created
    rw [hcreated]
    refine h.known other ?_
    replace hc : (s'.sta other).isConnected = true := hc
    by_cases hsame : other = ipsta
    · rwa [hsame]
    · rwa [hsta, Function.update_of_ne hsame] at hc
  · intro j other hj
    show (s'.sta other).isConnected = true
    rw [hsta, Function.update_of_ne (hother j other hj)]
    exact h.slots j other (hslots j other hj).2
  · exact fun j k other hj hk =>
      h.distinct j k other (hslots j other hj).2 (hslots k other hk).2
  · intro j other stage hr
    have hnone := hround other
    replace hr : round = some (.station j other stage) := hr
    rw [hr, stageOf_self] at hnone
    cases hnone
  · intro other
    show FlagOk (s'.sta other) (Round.stageOf other round)
    rw [hround other, hsta]
    by_cases hsame : other = ipsta
    · rw [hsame, Function.update_self]
      exact hflags
    · rw [Function.update_of_ne hsame, ← hothers other hsame]
      exact h.flags other

/-- A round that stays at its station. -/
theorem staysAt (h : AccountInv s) {i : Nat} {stage : RoundStage}
    (hround : s.round = some (.station i ipsta stage)) :
    (∀ {stage' : RoundStage} j other other',
      some (Round.station i ipsta stage') = some (Round.station j other other') →
        s.stations j = some other) ∧
    ∀ {stage' : RoundStage}, ∀ other ≠ ipsta,
      Round.stageOf other (some (.station i ipsta stage')) = Round.stageOf other s.round := by
  refine ⟨fun j other other' hr => ?_, fun other hne => ?_⟩
  · cases hr
    exact h.current i ipsta stage hround
  · rw [hround, stageOf_of_ne hne, stageOf_of_ne hne]

/-- A message is sent again, or none is left on the list. -/
theorem resendTurn (h : AccountInv s) {i : Nat} {cls : PacketClass} {failedOnFirst : Bool}
    (hround : s.round = some (.station i ipsta (.resend cls failedOnFirst))) (ret : WvIpcRet) :
    AccountInv (s.resendTurn i ipsta cls failedOnFirst ret) := by
  have hslot := h.current i ipsta _ hround
  have hconn := h.slots i ipsta hslot
  have hflag : (s.sta ipsta).hasPendingMsgs = true := by
    have hflags := h.flags ipsta
    rwa [hround, stageOf_self] at hflags
  obtain ⟨hcurrent, hothers⟩ := h.staysAt hround
  rw [WvIpserver.resendTurn]
  cases hpending : (s.sta ipsta).pending cls with
  | nil =>
    refine h.goOn ipsta rfl rfl rfl rfl hcurrent hothers ?_
    rw [stageOf_self]
    split
    · exact hflag
    · exact hflag
  | cons m rest =>
    dsimp only
    split
    · refine h.change rfl rfl rfl rfl ?_ hcurrent hothers ?_
      · have hnum := numPending_setPending (s.sta ipsta) cls rest
        rw [hpending, List.length_cons] at hnum
        simp only [WvIpstation.counted, WvIpstation.setPending, WvIpstation.numPending, hconn,
          if_true] at hnum ⊢
        omega
      · rw [stageOf_self]
        exact hflag
    · refine h.change rfl rfl rfl rfl rfl hcurrent hothers ?_
      rw [stageOf_self]
      exact hflag

theorem roundStep (h : AccountInv s) {round : Round} (hround : s.round = some round)
    (ret : WvIpcRet) : AccountInv (s.roundStep ret round) := by
  have hslotNext : ∀ {other : Option Round} (i : Nat), other = none ∨ other = some (.slot i) →
      (∀ ipsta, Round.stageOf ipsta other = none) ∧
        ∀ j ipsta stage, other = some (.station j ipsta stage) → s.stations j = some ipsta := by
    rintro other i (rfl | rfl)
    · exact ⟨fun _ => rfl, fun _ _ _ hr => by cases hr⟩
    · exact ⟨fun _ => rfl, fun _ _ _ hr => by cases hr⟩
  cases round with
  | slot i =>
    have hnone : ∀ ipsta, Round.stageOf ipsta s.round = none := fun ipsta => by
      rw [hround, stageOf_slot]
    have hleave : ∀ {other : Option Round} (j : Nat), other = none ∨ other = some (.slot j) →
        AccountInv { s with round := other } := fun j hother =>
      h.goOn 0 rfl rfl rfl rfl (hslotNext j hother).2
        (fun ipsta _ => ((hslotNext j hother).1 ipsta).trans (hnone ipsta).symm)
        (by
          show FlagOk _ (Round.stageOf 0 _)
          rw [(hslotNext j hother).1 0, ← hnone 0]
          exact h.flags 0)
    rw [WvIpserver.roundStep]
    split
    · cases hslot : s.stations i with
      | none => exact hleave (i + 1) (.inr rfl)
      | some ipsta =>
        dsimp only
        split
        · next hflag =>
          refine h.goOn ipsta rfl rfl rfl rfl (fun j other stage hr => ?_) (fun other hne => ?_) ?_
          · cases hr
            exact hslot
          · rw [hnone, stageOf_of_ne hne]
          · rw [stageOf_self]
            exact hflag
        · exact hleave (i + 1) (.inr rfl)
    · exact hleave i (.inl rfl)
  | station i ipsta stage =>
    have hslot := h.current i ipsta stage hround
    have hflags := h.flags ipsta
    rw [hround, stageOf_self] at hflags
    obtain ⟨hcurrent, hothers⟩ := h.staysAt hround
    cases stage with
    | resend cls failedOnFirst => exact h.resendTurn hround ret
    | setFlag =>
      refine h.change rfl rfl rfl rfl rfl hcurrent hothers ?_
      show FlagOk _ (Round.stageOf ipsta (some (.station i ipsta .mergeFlag)))
      rw [stageOf_self]
      exact rfl
    | mergeFlag =>
      refine h.change rfl rfl rfl rfl rfl hcurrent hothers ?_
      show FlagOk _ (Round.stageOf ipsta (some (.station i ipsta .removeStuck)))
      rw [stageOf_self]
      have hreplies : (s.sta ipsta).hasPendingMsgs =
        !((s.sta ipsta).pending .reply).isEmpty := hflags
      refine ⟨fun hunset cls => ?_, fun _ hset => ?_⟩
      · rw [hreplies] at hunset
        cases cls <;> simp_all
      · rw [hreplies] at hset
        simp only [Bool.or_eq_true, Bool.not_eq_true', List.isEmpty_eq_false_iff] at hset
        rcases hset with hset | hset
        · exact ⟨.reply, hset⟩
        · exact ⟨.event, hset⟩
    | removeStuck =>
      have hnone : ∀ other ≠ ipsta, Round.stageOf other s.round = none := fun other hne => by
        rw [hround, stageOf_of_ne hne]
      rw [WvIpserver.roundStep]
      split
      · exact h.remove hslot (hslotNext (i + 1) (.inr rfl)).1 hnone hflags
      · refine h.goOn ipsta rfl rfl rfl rfl (hslotNext (i + 1) (.inr rfl)).2
          (fun other hne => (hnone other hne).symm) ?_
        rw [stageOf_slot]
        exact hflags

theorem waveIpcsSendWouldBlock (h : AccountInv s) (hround : s.round = none) {packet : Packet θ μ}
    {dup node : Bool} (hnode : dup = true → (s.sta packet.ipsta).isConnected = true →
      s.limitReached packet.ipsta = false → node = true) :
    AccountInv (s.waveIpcsSendWouldBlock packet dup node).2 := by
  rw [WvIpserver.waveIpcsSendWouldBlock]
  split
  · exact h
  · next hdup =>
    split
    · exact h.same rfl rfl rfl rfl rfl
    · next hconn =>
      split
      · exact h.same rfl rfl rfl rfl rfl
      · next hlimit =>
        rw [Bool.not_eq_false] at hdup hconn
        rw [hnode hdup hconn (Bool.eq_false_of_not_eq_true hlimit)]
        exact h.park hround hconn

variable [DecidableEq θ]

theorem returns (h : AccountInv s) (packet : Packet θ μ) (ret : WvIpcRet) :
    AccountInv (s.returns packet ret) :=
  h.same rfl rfl rfl rfl rfl

theorem step {a : OutputAction θ μ} (h : AccountInv s) (hok : NodesFound s a)
    (hst : s.step a = some s') : AccountInv s' := by
  cases a with
  | accept =>
    simp only [WvIpserver.step, Option.ite_none_right_eq_some] at hst
    obtain ⟨hfree, hst⟩ := hst
    cases hst
    exact h.waveIpcsAcceptNewClient (round_of_serverFree hfree)
  | submit t ipsta cls msg =>
    simp only [WvIpserver.step] at hst
    cases hpc : s.pc t with
    | idle =>
      simp only [hpc, Option.ite_none_right_eq_some] at hst
      obtain ⟨-, hst⟩ := hst
      cases hst
      exact h.same rfl rfl rfl rfl rfl
    | send packet => simp [hpc] at hst
    | wouldBlock packet => simp [hpc] at hst
  | send t ret =>
    simp only [WvIpserver.step] at hst
    cases hpc : s.pc t with
    | idle => simp [hpc] at hst
    | wouldBlock packet => simp [hpc] at hst
    | send packet =>
      simp only [hpc] at hst
      cases ret <;> cases hst
      · exact (h.write packet).returns packet .success
      all_goals exact h.same rfl rfl rfl rfl rfl
  | sendWouldBlock t dup node =>
    simp only [WvIpserver.step] at hst
    cases hpc : s.pc t with
    | idle => simp [hpc] at hst
    | send packet => simp [hpc] at hst
    | wouldBlock packet =>
      cases hround : s.round with
      | some round => simp [hpc, hround] at hst
      | none =>
        simp only [hpc, hround] at hst
        cases hst
        exact (h.waveIpcsSendWouldBlock hround (hok packet hpc)).returns packet _
  | startRound =>
    simp only [WvIpserver.step, Option.ite_none_right_eq_some] at hst
    obtain ⟨⟨hfree, -⟩, hst⟩ := hst
    cases hst
    have hround := round_of_serverFree hfree
    refine h.goOn 0 rfl rfl rfl rfl (fun _ _ _ hr => by cases hr) (fun other _ => ?_) ?_
    · rw [hround]
      rfl
    · have hflags := h.flags 0
      rwa [hround] at hflags
  | round ret =>
    obtain ⟨round, hround, rfl⟩ := Option.map_eq_some_iff.mp hst
    exact h.roundStep hround ret
  | disconnect i =>
    simp only [WvIpserver.step, Option.ite_none_right_eq_some] at hst
    obtain ⟨hfree, hst⟩ := hst
    obtain ⟨ipsta, hslot, rfl⟩ := Option.map_eq_some_iff.mp hst
    have hround := round_of_serverFree hfree
    have hnone : ∀ other, Round.stageOf other s.round = none := fun other => by rw [hround]; rfl
    have hflags := h.flags ipsta
    rw [hnone] at hflags
    exact h.remove hslot hnone (fun other _ => hnone other) hflags
  | incref ipsta =>
    simp only [WvIpserver.step, Option.ite_none_right_eq_some] at hst
    obtain ⟨-, hst⟩ := hst
    cases hst
    exact h.change rfl rfl rfl rfl rfl h.current (fun _ _ => rfl) (h.flags ipsta)
  | decref ipsta =>
    simp only [WvIpserver.step, Option.ite_none_right_eq_some] at hst
    obtain ⟨hrefs, hst⟩ := hst
    cases hst
    refine h.waveIpcsStaDecref fun hconn => ?_
    rw [WvIpstation.upperRefs, if_pos hconn] at hrefs
    omega

end AccountInv

theorem PendingAccounted.ofInv {s : WvIpserver θ μ} (h : AccountInv s) (hfree : s.round = none) :
    PendingAccounted s where
  total := by
    rw [h.total, Finset.sum_filter]
    refine Finset.sum_congr rfl fun ipsta _ => ?_
    rw [WvIpstation.counted, WvIpstation.numPending, Int.natCast_add]
  flags ipsta _ hconn := by
    have hflags := h.flags ipsta
    rw [hfree, stageOf_none] at hflags
    refine ⟨fun hset => ?_, fun hmsgs => ?_⟩
    · obtain ⟨cls, hcls⟩ := hflags.2 hconn hset
      cases cls with
      | reply => exact .inl hcls
      | event => exact .inr hcls
    · by_contra hunset
      have hempty := hflags.1 (Bool.eq_false_of_not_eq_true hunset)
      rcases hmsgs with hmsgs | hmsgs
      · exact hmsgs (hempty .reply)
      · exact hmsgs (hempty .event)

/-- Whenever the pending lock is free, the counter and the flags agree with the lists, in every run
in which the lists never lack a node. -/
theorem pendingAccounting [DecidableEq θ] {as : List (OutputAction θ μ)} {s : WvIpserver θ μ}
    (hok : Along WvIpserver.step NodesFound .init as)
    (hrun : exec WvIpserver.step .init as = some s) (hfree : s.round = none) :
    PendingAccounted s :=
  .ofInv (exec_along (fun h hok hst => h.step hok hst) .init hok hrun) hfree

/-- An event for the only station would block and is parked, if there is a node for it. -/
def parkedRun (node : Bool) : List (OutputAction Unit Unit) :=
  [.accept, .submit (some ()) 0 .event (), .send (some ()) .cmdWouldBlock,
    .sendWouldBlock (some ()) true node]

/-- Two events are parked, and the resend round gets rid of the first one. -/
def drainedRun : List (OutputAction Unit Unit) :=
  parkedRun true ++ [.submit (some ()) 0 .event (), .sendWouldBlock (some ()) true true,
    .startRound, .round .success, .round .success, .round .success] ++
    List.replicate 40 (.round .cmdWouldBlock)

theorem pendingAccounting_drainedRun : ∃ s,
    exec WvIpserver.step (.init : WvIpserver Unit Unit) drainedRun = some s ∧ s.round = none ∧
      s.stationHasPendingMsgs = 1 ∧ PendingAccounted s := by
  have hok : Along WvIpserver.step NodesFound .init drainedRun := by
    apply along_of_mem
    simp [drainedRun, parkedRun, NodesFound]
  exact ⟨_, rfl, rfl, rfl, pendingAccounting hok rfl rfl⟩

/-- Without a node, a message is counted that is on no list. -/
theorem parked_without_node : ¬ ∀ (as : List (OutputAction Unit Unit)) (s : WvIpserver Unit Unit),
    exec WvIpserver.step .init as = some s → s.round = none → PendingAccounted s := by
  intro h
  have hflags := (h (parkedRun false) _ rfl rfl).flags 0 (by decide) rfl
  rcases hflags.mp rfl with hmsgs | hmsgs
  · exact hmsgs rfl
  · exact hmsgs rfl

end Dwpal.Ipc
