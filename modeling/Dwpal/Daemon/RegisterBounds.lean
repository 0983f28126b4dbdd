import Dwpal.Daemon.HostapIface

/-! What `hostap_register_sta_to_events` of `daemon/hostap_iface.c` reads of a registration request,
and which requests it accepts. -/

namespace Dwpal.Daemon

open Frames Ipc

/-- The positions of `reg_str` that the walk of `hostap_register_sta_to_events` reads, from position
`i` on. -/
def hostapRegisterReads : Nat → Nat → Nat → List UInt8 → List Nat
  | 0, _, _, _ => []
  | fuel + 1, left, i, regStr =>
    if left = 0 then []
    else
      let opCodeLen := (regStr.headD 0).toNat
      i :: if opCodeLen = 0 ∨ opCodeLen ≥ 64 then []
        else
          List.range' (i + 1) opCodeLen ++
            hostapRegisterReads fuel (left - (1 + opCodeLen)) (i + (1 + opCodeLen))
              (regStr.drop (1 + opCodeLen))

/-- What is asked of a registration with the request `regStr`, behind which the memory `beyond`
lies: it ends, reads only the request, and succeeds only for whole entries. -/
structure RegisterSafe (regStr beyond : List UInt8) : Prop where
  ends : ∀ (ipsta : Station) (k : Nat) (events : List HostapEvent)
    (intfFlags : List (List UInt8 × Bool)),
    hostapRegisterWalk ipsta (regStr.length + k) regStr.length (regStr ++ beyond) events intfFlags =
      hostapRegisterWalk ipsta regStr.length regStr.length (regStr ++ beyond) events intfFlags
  inside : ∀ k ∈ hostapRegisterReads regStr.length regStr.length 0 (regStr ++ beyond),
    k < regStr.length
  whole : ∀ (events : List HostapEvent) (ipsta : Station),
    (hostapRegisterStaToEvents events ipsta (regStr ++ beyond) regStr.length).1 = 0 →
      WholeUntil (· = 0) regStr

/-- The length bytes at which the walk stops. -/
def StopsWalk (b : UInt8) : Prop := b = 0 ∨ 64 ≤ b.toNat

variable {ipsta : Station} {fuel left i : Nat} {regStr beyond : List UInt8}
  {events : List HostapEvent} {intfFlags : List (List UInt8 × Bool)}

/-- More rounds change nothing. -/
theorem hostapRegisterWalk_mono {k : Nat} (hfuel : left ≤ fuel) :
    hostapRegisterWalk ipsta (fuel + k) left regStr events intfFlags =
      hostapRegisterWalk ipsta fuel left regStr events intfFlags := by
  induction fuel generalizing left regStr events intfFlags with
  | zero =>
    obtain rfl := Nat.le_zero.mp hfuel
    cases k with
    | zero => rfl
    | succ k =>
      rw [Nat.zero_add, hostapRegisterWalk, hostapRegisterWalk, if_pos (Or.inl rfl)]
  | succ fuel ih =>
    rw [Nat.add_right_comm, hostapRegisterWalk, hostapRegisterWalk]
    by_cases hend : left = 0 ∨ regStr.headD 0 = 0
    · rw [if_pos hend, if_pos hend]
    · rw [if_neg hend, if_neg hend]
      by_cases hlong : (regStr.headD 0).toNat ≥ 64
      · rw [if_pos hlong, if_pos hlong]
      · rw [if_neg hlong, if_neg hlong]
        exact ih (by omega)

theorem stopsWalk_iff {b : UInt8} : StopsWalk b ↔ b.toNat = 0 ∨ b.toNat ≥ 64 :=
  or_congr_left ⟨fun h => h ▸ rfl, fun h => UInt8.toNat_inj.mp h⟩

/-- What is left behind an entry. -/
theorem drop_entry {b : UInt8} {bytes : List UInt8} (beyond : List UInt8)
    (hfit : b.toNat ≤ bytes.length) :
    (b :: bytes ++ beyond).drop (1 + b.toNat) = bytes.drop b.toNat ++ beyond ∧
      (b :: bytes).length - (1 + b.toNat) = (bytes.drop b.toNat).length := by
  rw [Nat.add_comm 1, List.cons_append, List.drop_succ_cons, List.drop_append_of_le_length hfit,
    List.length_drop, List.length_cons, Nat.add_sub_add_right]
  exact ⟨rfl, rfl⟩

/-- The walk stays in the request exactly if each entry that it goes over is all there. -/
theorem hostapRegisterReads_inside (hfuel : regStr.length ≤ fuel) :
    (∀ k ∈ hostapRegisterReads fuel regStr.length i (regStr ++ beyond), k < i + regStr.length) ↔
      WholeUntil StopsWalk regStr := by
  induction fuel generalizing i regStr with
  | zero =>
    obtain rfl := List.length_eq_zero_iff.mp (Nat.le_zero.mp hfuel)
    exact iff_of_true nofun (wholeUntil_stop (Or.inl rfl))
  | succ fuel ih =>
    cases regStr with
    | nil => exact iff_of_true nofun (wholeUntil_stop (Or.inl rfl))
    | cons b bytes =>
      have hhead : (b :: bytes ++ beyond).headD 0 = b := rfl
      rw [hostapRegisterReads,
        if_neg (List.length_pos_iff.mpr (List.cons_ne_nil b bytes)).ne', hhead]
      rw [List.forall_mem_cons]
      by_cases hstop : StopsWalk b
      · rw [if_pos (stopsWalk_iff.mp hstop)]
        exact iff_of_true ⟨by simp, nofun⟩ (wholeUntil_stop hstop)
      · rw [if_neg fun h => hstop (stopsWalk_iff.mpr h), wholeUntil_cons (Or.inl rfl) hstop,
          List.forall_mem_append]
        have hpos : 0 < b.toNat := Nat.pos_of_ne_zero fun h => hstop (stopsWalk_iff.mpr (.inl h))
        by_cases hfit : b.toNat ≤ bytes.length
        · obtain ⟨hdrop, hleft⟩ := drop_entry beyond hfit
          have hlen : (bytes.drop b.toNat).length ≤ fuel := by
            rw [List.length_drop]
            exact Nat.le_trans (Nat.sub_le _ _) (Nat.le_of_succ_le_succ hfuel)
          have hrest := @ih (i + (1 + b.toNat)) _ hlen
          have hend : i + (1 + b.toNat) + (bytes.drop b.toNat).length =
              i + (b :: bytes).length := by
            rw [List.length_drop, List.length_cons]
            omega
          rw [hend] at hrest
          rw [hdrop, hleft, hrest, and_iff_right hfit, and_iff_right (by simp), and_iff_right]
          intro k hk
          obtain ⟨m, hm, rfl⟩ := List.mem_range'.mp hk
          rw [List.length_cons]
          omega
        · refine iff_of_false (fun h => ?_) fun h => hfit h.1
          have hlast := h.2.1 (i + b.toNat) (List.mem_range'.mpr ⟨b.toNat - 1, by omega, by omega⟩)
          rw [List.length_cons] at hlast
          omega

/-- A walk over whole entries that succeeds has gone over all of the request. -/
theorem hostapRegisterWalk_whole (hfuel : regStr.length ≤ fuel)
    (hwhole : WholeUntil StopsWalk regStr)
    (hret : (hostapRegisterWalk ipsta fuel regStr.length (regStr ++ beyond) events intfFlags).1 =
      0) :
    WholeUntil (· = 0) regStr := by
  induction fuel generalizing regStr events intfFlags with
  | zero =>
    obtain rfl := List.length_eq_zero_iff.mp (Nat.le_zero.mp hfuel)
    exact wholeUntil_stop rfl
  | succ fuel ih =>
    cases regStr with
    | nil => exact wholeUntil_stop rfl
    | cons b bytes =>
      have hhead : (b :: bytes ++ beyond).headD 0 = b := rfl
      by_cases hzero : b = 0
      · exact wholeUntil_stop hzero
      · rw [hostapRegisterWalk, hhead, if_neg (by simp [hzero])] at hret
        by_cases hlong : b.toNat ≥ 64
        · rw [if_pos hlong] at hret
          exact absurd hret Nat.one_ne_zero
        · rw [if_neg hlong] at hret
          have hstop : ¬StopsWalk b := not_or.mpr ⟨hzero, hlong⟩
          obtain ⟨hfit, hrest⟩ := (wholeUntil_cons (Or.inl rfl) hstop).mp hwhole
          obtain ⟨hdrop, hleft⟩ := drop_entry beyond hfit
          rw [hdrop, hleft] at hret
          refine (wholeUntil_zero_cons hzero).mpr ⟨hfit, ih ?_ hrest hret⟩
          rw [List.length_drop]
          exact Nat.le_trans (Nat.sub_le _ _) (Nat.le_of_succ_le_succ hfuel)

/-- A registration request is handled safely exactly if it consists of whole entries of at most 63
bytes up to a zero byte, a longer length byte or its end. -/
theorem registerSafe_iff (regStr beyond : List UInt8) :
    RegisterSafe regStr beyond ↔ WholeUntil StopsWalk regStr := by
  have hinside : (∀ k ∈ hostapRegisterReads regStr.length regStr.length 0 (regStr ++ beyond),
      k < 0 + regStr.length) ↔ WholeUntil StopsWalk regStr :=
    hostapRegisterReads_inside (Nat.le_refl _)
  rw [Nat.zero_add] at hinside
  constructor
  · exact fun h => hinside.mp h.inside
  · intro hwhole
    refine ⟨fun ipsta k events intfFlags => hostapRegisterWalk_mono (Nat.le_refl _),
      hinside.mpr hwhole, fun events ipsta hret => ?_⟩
    have hwalk : (hostapRegisterWalk ipsta regStr.length regStr.length (regStr ++ beyond) events
        (gIntfEvents.map fun name => (name, false))).1 = 0 := by
      unfold hostapRegisterStaToEvents at hret
      split at hret
      · next hwalk => rw [hwalk]
      · next hwalk =>
        rw [hwalk]
        exact hret
    exact hostapRegisterWalk_whole (Nat.le_refl _) hwhole hwalk

/-- An entry of 63 bytes is announced, and two bytes of it are there: the registration succeeds. -/
theorem truncatedEntry_accepted :
    (hostapRegisterStaToEvents [] 0 [63, 65, 65] 3).1 = 0 ∧ ¬RegisterSafe [63, 65, 65] [] :=
  ⟨by decide, fun h => absurd (h.inside 63 (by decide)) (by decide)⟩

end Dwpal.Daemon
