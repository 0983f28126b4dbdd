import Dwpal.Ipc.Header
import Dwpal.Lib.Loop

/-! The header area as a peer may have sent it, with any content: which bytes of it the operations
on the header stack touch, whether they come to an end, and what they do to an area that is no
stack. -/

namespace Dwpal.Ipc

open Frames WvIpcMsg Loop

/-- There is a header at offset `i`. -/
def HeaderAt (area : List UInt8) (i : Nat) : Prop := i < ipcMsgHdrSize ∧ area.getD i 0 ≠ 0

instance (area : List UInt8) (i : Nat) : Decidable (HeaderAt area i) :=
  inferInstanceAs (Decidable (_ ∧ _))

/-- The area holds a stack: headers one after the other, up to a zero byte or the end of the
area. -/
def ValidStack (area : List UInt8) : Prop := WholeUntil (· = 0) area

/-- A reader with an 8-bit offset, at offset `i` and with the last header at `j`, comes to an end,
and the last header that it passes reaches beyond the area. -/
inductive Rejects (area : List UInt8) : Nat → Nat → Prop
  | out {i j : Nat} (hend : ¬HeaderAt area i)
      (hbeyond : ipcMsgHdrSize ≤ j + (area.getD j 0).toNat) : Rejects area i j
  | next {i j : Nat} (hheader : HeaderAt area i)
      (hrest : Rejects area ((i + (area.getD i 0).toNat + 1) % 256) i) : Rejects area i j

/-- The offsets of the area that the loop of `wave_ipc_msg_push_hdr` reads. -/
def headerEndReads (hdr : List UInt8) : Nat → Nat → List Nat
  | 0, _ => []
  | fuel + 1, i =>
    if i < ipcMsgHdrSize then
      i :: if hdr.getD i 0 ≠ 0 then headerEndReads hdr fuel (i + (hdr.getD i 0).toNat + 1) else []
    else []

/-- The offsets of the area that `wave_ipc_msg_push_hdr` reads or writes. -/
def pushAccesses (msg : WvIpcMsg) (hdr : List UInt8) : List Nat :=
  if hdr.length = 0 then []
  else
    headerEndReads msg.hdr.bytes ipcMsgHdrSize 0 ++
      let i := headerEnd msg.hdr.bytes ipcMsgHdrSize 0
      if i ≥ ipcMsgHdrSize then []
      else if i + hdr.length + 1 > ipcMsgHdrSize then []
      else List.range' i (hdr.length + 1)

/-- The offsets of the area that the loop of `wave_ipc_msg_pop_hdr` reads. -/
def popScanReads (hdr : List UInt8) : Nat → Nat → List Nat
  | 0, _ => []
  | fuel + 1, i =>
    if i < ipcMsgHdrSize then
      i :: if hdr.getD i 0 ≠ 0 then popScanReads hdr fuel ((i + (hdr.getD i 0).toNat + 1) % 256)
        else []
    else []

/-- The offsets of the area that `wave_ipc_msg_pop_hdr` reads or writes. What it prints when the
last header reaches beyond the area is read too. -/
def popAccesses (msg : WvIpcMsg) (room : Nat) : List Nat :=
  if room = 0 then []
  else
    popScanReads msg.hdr.bytes (ipcMsgHdrSize + 1) 0 ++
      match popScan msg.hdr.bytes (ipcMsgHdrSize + 1) 0 ipcMsgHdrSize with
      | none => []
      | some (i, j) =>
        let len := (msg.hdr.bytes.getD j 0).toNat
        if i = 0 then []
        else if j ≥ ipcMsgHdrSize ∨ j + len ≥ ipcMsgHdrSize then [j]
        else if len > room then [j]
        else j :: List.range' (j + 1) len ++ List.range' j (len + 1)

/-- The offsets of the area that `dwpald_header_peek` reads or writes. -/
def peekAccesses (msg : WvIpcMsg) : List Nat :=
  popAccesses msg 7 ++
    match dwpaldHeaderPop msg with
    | .popped hdr msg => pushAccesses msg hdr.bytes
    | _ => []

/-- What is asked of the operations on an area with any content: they end, they stay inside the
area, and they fail without changing it when it is no stack. -/
structure HeaderSafe (msg : WvIpcMsg) : Prop where
  pop_ends : ∀ room : UInt8, waveIpcMsgPopHdr msg room.toNat ≠ .diverges
  pop_inside : ∀ room : UInt8, ∀ k ∈ popAccesses msg room.toNat, k < ipcMsgHdrSize
  pop_fails : ¬ValidStack msg.hdr.bytes → ∀ room : UInt8, waveIpcMsgPopHdr msg room.toNat = .error
  peek_ends : dwpaldHeaderPeek msg ≠ .diverges
  peek_inside : ∀ k ∈ peekAccesses msg, k < ipcMsgHdrSize
  peek_fails : ¬ValidStack msg.hdr.bytes → dwpaldHeaderPeek msg = .failed msg
  push_ends : ¬HeaderAt msg.hdr.bytes (headerEnd msg.hdr.bytes ipcMsgHdrSize 0)
  push_inside : ∀ hdr : List UInt8, hdr.length < 256 → ∀ k ∈ pushAccesses msg hdr, k < ipcMsgHdrSize
  push_fails : ¬ValidStack msg.hdr.bytes → ∀ hdr : List UInt8, hdr.length < 256 →
    waveIpcMsgPushHdr msg hdr = (.error, msg)

variable {area : List UInt8} {i j n fuel room : Nat} {msg : WvIpcMsg} {r : Nat × Nat}

/-! ### The accesses -/

theorem headerEndReads_inside : ∀ k ∈ headerEndReads area fuel i, k < ipcMsgHdrSize := by
  induction fuel generalizing i with
  | zero => exact fun _ hk => absurd hk List.not_mem_nil
  | succ fuel ih =>
    intro k hk
    rw [headerEndReads] at hk
    split at hk
    · next hi =>
      rcases List.mem_cons.mp hk with rfl | hk
      · exact hi
      · split at hk
        · exact ih k hk
        · cases hk
    · cases hk

theorem popScanReads_inside : ∀ k ∈ popScanReads area fuel i, k < ipcMsgHdrSize := by
  induction fuel generalizing i with
  | zero => exact fun _ hk => absurd hk List.not_mem_nil
  | succ fuel ih =>
    intro k hk
    rw [popScanReads] at hk
    split at hk
    · next hi =>
      rcases List.mem_cons.mp hk with rfl | hk
      · exact hi
      · split at hk
        · exact ih k hk
        · cases hk
    · cases hk

theorem pushAccesses_inside (hdr : List UInt8) : ∀ k ∈ pushAccesses msg hdr, k < ipcMsgHdrSize := by
  intro k hk
  unfold pushAccesses at hk
  split at hk
  · cases hk
  · rcases List.mem_append.mp hk with hk | hk
    · exact headerEndReads_inside k hk
    · simp only at hk
      split_ifs at hk
      · cases hk
      · cases hk
      · obtain ⟨m, hm, rfl⟩ := List.mem_range'.mp hk
        omega

/-- Where the loop of `wave_ipc_msg_pop_hdr` ends there is no header, and the last one it passed, if
there was one, is inside the area. -/
theorem popScan_end (h : popScan area fuel i j = some r) :
    ¬HeaderAt area r.1 ∧ (r = (i, j) ∨ HeaderAt area r.2) := by
  induction fuel generalizing i j with
  | zero => cases h
  | succ fuel ih =>
    rw [popScan] at h
    split at h
    · next hheader =>
      obtain ⟨hend, rfl | hlast⟩ := ih h
      · exact ⟨hend, .inr hheader⟩
      · exact ⟨hend, .inr hlast⟩
    · next hheader =>
      cases h
      exact ⟨hheader, .inl rfl⟩

theorem popAccesses_inside : ∀ k ∈ popAccesses msg room, k < ipcMsgHdrSize := by
  intro k hk
  unfold popAccesses at hk
  split at hk
  · cases hk
  · rcases List.mem_append.mp hk with hk | hk
    · exact popScanReads_inside k hk
    · split at hk
      · cases hk
      · next i j hscan =>
        simp only at hk
        have hj : i ≠ 0 → j < ipcMsgHdrSize := by
          intro hi
          rcases (popScan_end hscan).2 with heq | hheader
          · cases heq
            exact absurd rfl hi
          · exact hheader.1
        split_ifs at hk with hi hout hbig
        · cases hk
        · exact List.mem_singleton.mp hk ▸ hj hi
        · exact List.mem_singleton.mp hk ▸ hj hi
        · rw [not_or] at hout
          rcases List.mem_cons.mp hk with rfl | hk
          · exact hj hi
          · rcases List.mem_append.mp hk with hk | hk <;>
              · obtain ⟨m, hm, rfl⟩ := List.mem_range'.mp hk
                omega

theorem peekAccesses_inside : ∀ k ∈ peekAccesses msg, k < ipcMsgHdrSize := by
  intro k hk
  rcases List.mem_append.mp hk with hk | hk
  · exact popAccesses_inside k hk
  · split at hk
    · exact pushAccesses_inside _ k hk
    · cases hk

/-! ### The end of the loops -/

theorem headerEnd_zero (hzero : area.getD i 0 = 0) : headerEnd area fuel i = i := by
  cases fuel with
  | zero => rfl
  | succ fuel => rw [headerEnd, if_neg fun h => h.2 hzero]

theorem headerEnd_header (h : HeaderAt area i) :
    headerEnd area (fuel + 1) i = headerEnd area fuel (i + (area.getD i 0).toNat + 1) := if_pos h

theorem headerEnd_out (hi : ipcMsgHdrSize ≤ i) : headerEnd area fuel i = i := by
  cases fuel with
  | zero => rfl
  | succ fuel => rw [headerEnd, if_neg fun h => absurd h.1 (Nat.not_lt.mpr hi)]

theorem headerEnd_ge : i ≤ headerEnd area fuel i := by
  induction fuel generalizing i with
  | zero => exact Nat.le_refl i
  | succ fuel ih =>
    rw [headerEnd]
    split
    · exact Nat.le_trans (by omega) ih
    · exact Nat.le_refl i

/-- The offset grows, so that the rounds suffice. -/
theorem headerEnd_end (hfuel : ipcMsgHdrSize ≤ i + fuel) :
    ¬HeaderAt area (headerEnd area fuel i) := by
  induction fuel generalizing i with
  | zero => exact fun h => absurd h.1 (Nat.not_lt.mpr hfuel)
  | succ fuel ih =>
    rw [headerEnd]
    split
    · exact ih (by omega)
    · next hheader => exact hheader

theorem drop_eq_cons (harea : area.length = ipcMsgHdrSize) (hi : i < ipcMsgHdrSize) :
    area.drop i = area.getD i 0 :: area.drop (i + 1) := by
  have hlt : i < area.length := harea ▸ hi
  rw [List.drop_eq_getElem_cons hlt, List.getD_eq_getElem?_getD, List.getElem?_eq_getElem hlt,
    Option.getD_some]

/-- A walk over the area that starts at offset `i` ends inside exactly if a stack starts there. -/
theorem headerEnd_valid (harea : area.length = ipcMsgHdrSize) (hi : i ≤ ipcMsgHdrSize)
    (hfuel : ipcMsgHdrSize ≤ i + fuel) :
    headerEnd area fuel i ≤ ipcMsgHdrSize ↔ ValidStack (area.drop i) := by
  have hend : ipcMsgHdrSize ≤ i → ∀ fuel : Nat,
      (headerEnd area fuel i ≤ ipcMsgHdrSize ↔ ValidStack (area.drop i)) := by
    intro hge fuel
    rw [headerEnd_out hge, List.drop_of_length_le (harea ▸ hge)]
    exact iff_of_true hi (wholeUntil_stop rfl)
  induction fuel generalizing i with
  | zero => exact hend hfuel 0
  | succ fuel ih =>
    rcases Nat.lt_or_ge i ipcMsgHdrSize with hlt | hge
    · by_cases hzero : area.getD i 0 = 0
      · rw [headerEnd_zero hzero]
        refine iff_of_true hi (wholeUntil_stop ?_)
        rw [drop_eq_cons harea hlt, hzero]
        rfl
      · rw [headerEnd, if_pos ⟨hlt, hzero⟩, drop_eq_cons harea hlt, ValidStack,
          wholeUntil_zero_cons hzero, List.drop_drop, List.length_drop, harea]
        by_cases hfits : i + (area.getD i 0).toNat + 1 ≤ ipcMsgHdrSize
        · have hnext : i + 1 + (area.getD i 0).toNat = i + (area.getD i 0).toNat + 1 := by omega
          rw [hnext, and_iff_right (by omega)]
          refine ih hfits (by omega) fun hge fuel => ?_
          rw [headerEnd_out hge, List.drop_of_length_le (harea ▸ hge)]
          exact iff_of_true hfits (wholeUntil_stop rfl)
        · rw [headerEnd_out (by omega)]
          exact iff_of_false hfits fun h => hfits (by omega)
    · exact hend hge _

/-! ### The loop of the pop -/

/-- The offset after a round of the loop of `wave_ipc_msg_pop_hdr`. -/
def popNext (area : List UInt8) (i : Nat) : Option Nat :=
  if HeaderAt area i then some ((i + (area.getD i 0).toNat + 1) % 256) else none

theorem popNext_header (h : HeaderAt area i) :
    popNext area i = some ((i + (area.getD i 0).toNat + 1) % 256) := if_pos h

theorem popNext_end (h : ¬HeaderAt area i) : popNext area i = none := if_neg h

theorem popScan_header (h : HeaderAt area i) : popScan area (fuel + 1) i j =
    popScan area fuel ((i + (area.getD i 0).toNat + 1) % 256) i := if_pos h

theorem popScan_stop (h : ¬HeaderAt area i) : popScan area (fuel + 1) i j = some (i, j) := if_neg h

theorem popScan_endsIn (h : popScan area fuel i j = some r) : ∃ n, EndsIn (popNext area) i n := by
  induction fuel generalizing i j with
  | zero => cases h
  | succ fuel ih =>
    by_cases hheader : HeaderAt area i
    · rw [popScan_header hheader] at h
      obtain ⟨n, hn⟩ := ih h
      exact ⟨n + 1, .round (popNext_header hheader) hn⟩
    · exact ⟨0, .stop (popNext_end hheader)⟩

theorem popScan_some (h : EndsIn (popNext area) i n) (hfuel : n < fuel) :
    ∃ r, popScan area fuel i j = some r := by
  induction n generalizing i j fuel with
  | zero =>
    obtain ⟨fuel, rfl⟩ := Nat.exists_eq_succ_of_ne_zero (Nat.ne_of_gt hfuel)
    cases h with
    | stop hstop =>
      refine ⟨_, popScan_stop fun hheader => ?_⟩
      cases hstop.symm.trans (popNext_header hheader)
  | succ n ih =>
    obtain ⟨fuel, rfl⟩ := Nat.exists_eq_succ_of_ne_zero (Nat.ne_of_gt (Nat.zero_lt_of_lt hfuel))
    cases h with
    | round hnext hrest =>
      by_cases hheader : HeaderAt area i
      · obtain rfl := Option.some.inj (hnext.symm.trans (popNext_header hheader))
        rw [popScan_header hheader]
        exact ih hrest (Nat.lt_of_succ_lt_succ hfuel)
      · cases hnext.symm.trans (popNext_end hheader)

/-- More rounds change nothing. -/
theorem popScan_mono {k : Nat} (h : popScan area fuel i j = some r) :
    popScan area (fuel + k) i j = some r := by
  induction fuel generalizing i j with
  | zero => cases h
  | succ fuel ih =>
    rw [Nat.add_right_comm]
    by_cases hheader : HeaderAt area i
    · rw [popScan_header hheader] at h ⊢
      exact ih h
    · rw [popScan_stop hheader] at h ⊢
      exact h

/-- The 33 rounds are enough for a loop that ends. -/
theorem popScan_enough (h : popScan area fuel i j = some r) :
    popScan area (ipcMsgHdrSize + 1) i j = some r := by
  obtain ⟨n, hn⟩ := popScan_endsIn h
  have hle : n ≤ ipcMsgHdrSize := by
    have hcard := hn.le_card (s := Finset.range ipcMsgHdrSize) fun a b hab => by
      unfold popNext at hab
      split at hab
      · next hheader => exact Finset.mem_range.mpr hheader.1
      · cases hab
    rwa [Finset.card_range] at hcard
  obtain ⟨r', hr'⟩ := popScan_some (j := j) hn (Nat.lt_succ_of_le hle)
  have hboth := popScan_mono (k := ipcMsgHdrSize + 1) h
  rw [Nat.add_comm, popScan_mono hr'] at hboth
  rw [hr', hboth]

theorem rejects_iff : Rejects area i j ↔ ∃ r, popScan area (ipcMsgHdrSize + 1) i j = some r ∧
    ipcMsgHdrSize ≤ r.2 + (area.getD r.2 0).toNat := by
  constructor
  · intro h
    have hfuel : ∃ fuel r, popScan area fuel i j = some r ∧
        ipcMsgHdrSize ≤ r.2 + (area.getD r.2 0).toNat := by
      induction h with
      | out hend hbeyond => exact ⟨1, _, popScan_stop hend, hbeyond⟩
      | next hheader hrest ih =>
        obtain ⟨fuel, r, hr, hbeyond⟩ := ih
        exact ⟨fuel + 1, r, (popScan_header hheader).trans hr, hbeyond⟩
    obtain ⟨fuel, r, hr, hbeyond⟩ := hfuel
    exact ⟨r, popScan_enough hr, hbeyond⟩
  · rintro ⟨r, hr, hbeyond⟩
    generalize ipcMsgHdrSize + 1 = fuel at hr
    induction fuel generalizing i j with
    | zero => cases hr
    | succ fuel ih =>
      by_cases hheader : HeaderAt area i
      · rw [popScan_header hheader] at hr
        exact .next hheader (ih hr)
      · rw [popScan_stop hheader] at hr
        cases hr
        exact .out hheader hbeyond

/-- On a stack the offset does not wrap, and the loop ends. -/
theorem popScan_valid (h : headerEnd area fuel i ≤ ipcMsgHdrSize)
    (hend : ¬HeaderAt area (headerEnd area fuel i)) :
    ∃ r, popScan area (fuel + 1) i j = some r := by
  induction fuel generalizing i j with
  | zero => exact ⟨(i, j), popScan_stop hend⟩
  | succ fuel ih =>
    by_cases hheader : HeaderAt area i
    · rw [headerEnd_header hheader] at h hend
      have hle : i + (area.getD i 0).toNat + 1 ≤
          headerEnd area fuel (i + (area.getD i 0).toNat + 1) := headerEnd_ge
      rw [popScan_header hheader, Nat.mod_eq_of_lt (by simp only [ipcMsgHdrSize] at h; omega)]
      exact ih h hend
    · exact ⟨(i, j), popScan_stop hheader⟩

/-! ### The operations -/

theorem validStack_iff (msg : WvIpcMsg) :
    ValidStack msg.hdr.bytes ↔ headerEnd msg.hdr.bytes ipcMsgHdrSize 0 ≤ ipcMsgHdrSize := by
  have h : headerEnd msg.hdr.bytes ipcMsgHdrSize 0 ≤ ipcMsgHdrSize ↔
      ValidStack (msg.hdr.bytes.drop 0) :=
    headerEnd_valid msg.hdr.length_eq (Nat.zero_le _) (by omega)
  rw [h, List.drop_zero]

theorem pushHdr_invalid (hdr : List UInt8) (hinvalid : ¬ValidStack msg.hdr.bytes) :
    waveIpcMsgPushHdr msg hdr = (.error, msg) := by
  rw [validStack_iff, Nat.not_le] at hinvalid
  unfold waveIpcMsgPushHdr
  split_ifs with hempty
  · rfl
  · simp only
    rw [if_pos (Nat.le_of_lt hinvalid)]

/-- What the pop makes of an area that is no stack, if its loop ends. -/
theorem popHdr_invalid (hinvalid : ¬ValidStack msg.hdr.bytes)
    (hscan : popScan msg.hdr.bytes (ipcMsgHdrSize + 1) 0 ipcMsgHdrSize = some r) :
    (∀ room : UInt8, waveIpcMsgPopHdr msg room.toNat = .error) ↔
      ipcMsgHdrSize ≤ r.2 + (msg.hdr.bytes.getD r.2 0).toNat := by
  obtain ⟨i, j⟩ := r
  have hstart : HeaderAt msg.hdr.bytes 0 := by
    refine ⟨by decide, fun hzero => hinvalid ?_⟩
    rw [validStack_iff, headerEnd_zero hzero]
    exact Nat.zero_le _
  have hend := popScan_end hscan
  have hi : i ≠ 0 := by
    rintro rfl
    exact hend.1 hstart
  have hj : j < ipcMsgHdrSize := by
    rcases hend.2 with heq | hheader
    · cases heq
      exact absurd rfl hi
    · exact hheader.1
  have hpop : ∀ room : UInt8, room ≠ 0 → waveIpcMsgPopHdr msg room.toNat =
      if j ≥ ipcMsgHdrSize ∨ j + (msg.hdr.bytes.getD j 0).toNat ≥ ipcMsgHdrSize then .error
      else if (msg.hdr.bytes.getD j 0).toNat > room.toNat then .error
      else .popped ((msg.hdr.bytes.drop (j + 1)).take (msg.hdr.bytes.getD j 0).toNat)
        { msg with
          hdr := msg.hdr.write j (List.replicate ((msg.hdr.bytes.getD j 0).toNat + 1) 0) } := by
    intro room hroom
    have hpos : ¬room.toNat = 0 := fun h => hroom (UInt8.toNat_inj.mp h)
    rw [waveIpcMsgPopHdr, if_neg hpos, hscan]
    simp only [if_neg hi]
  constructor
  · intro herror
    refine Nat.not_lt.mp fun hlt => ?_
    change j + (msg.hdr.bytes.getD j 0).toNat < ipcMsgHdrSize at hlt
    have h255 := herror 255
    rw [hpop 255 (by decide), if_neg (by omega), if_neg] at h255
    · cases h255
    · have := (msg.hdr.bytes.getD j 0).toNat_lt
      change ¬_ > 255
      omega
  · intro hbeyond room
    by_cases hroom : room = 0
    · subst hroom
      rfl
    · rw [hpop room hroom, if_pos (.inr hbeyond)]

theorem popHdr_ends (hscan : popScan msg.hdr.bytes (ipcMsgHdrSize + 1) 0 ipcMsgHdrSize = some r) :
    waveIpcMsgPopHdr msg room ≠ .diverges := by
  obtain ⟨i, j⟩ := r
  unfold waveIpcMsgPopHdr
  rw [hscan]
  simp only
  split_ifs <;> exact PopResult.noConfusion

theorem dwpaldHeaderPeek_ends (h : waveIpcMsgPopHdr msg 7 ≠ .diverges) :
    dwpaldHeaderPeek msg ≠ .diverges := by
  have hpop : dwpaldHeaderPop msg ≠ .diverges := by
    unfold dwpaldHeaderPop headerPop
    split
    · next hdiverges => exact absurd hdiverges h
    · exact nofun
    · split <;> exact nofun
  unfold dwpaldHeaderPeek
  split
  · split <;> exact nofun
  · exact hpop

theorem dwpaldHeaderPeek_fails (h : waveIpcMsgPopHdr msg 7 = .error) :
    dwpaldHeaderPeek msg = .failed msg := by
  have hpop : dwpaldHeaderPop msg = .failed msg := by
    rw [dwpaldHeaderPop, headerPop, h]
  rw [dwpaldHeaderPeek, hpop]

theorem HeaderSafe.of_scan
    (hscan : popScan msg.hdr.bytes (ipcMsgHdrSize + 1) 0 ipcMsgHdrSize = some r)
    (hbeyond : ¬ValidStack msg.hdr.bytes →
      ipcMsgHdrSize ≤ r.2 + (msg.hdr.bytes.getD r.2 0).toNat) : HeaderSafe msg where
  pop_ends _ := popHdr_ends hscan
  pop_inside _ := popAccesses_inside
  pop_fails hinvalid := (popHdr_invalid hinvalid hscan).mpr (hbeyond hinvalid)
  peek_ends := dwpaldHeaderPeek_ends (popHdr_ends hscan)
  peek_inside := peekAccesses_inside
  peek_fails hinvalid :=
    dwpaldHeaderPeek_fails ((popHdr_invalid hinvalid hscan).mpr (hbeyond hinvalid) 7)
  push_ends := headerEnd_end (by omega)
  push_inside hdr _ := pushAccesses_inside hdr
  push_fails hinvalid hdr _ := pushHdr_invalid hdr hinvalid

/-- What is asked holds exactly for the stacks, and for the areas on which an 8-bit offset gets to
an end behind a header that reaches beyond the area. -/
theorem headerSafe_iff (msg : WvIpcMsg) : HeaderSafe msg ↔
    ValidStack msg.hdr.bytes ∨ Rejects msg.hdr.bytes 0 ipcMsgHdrSize := by
  constructor
  · intro hsafe
    refine or_iff_not_imp_left.mpr fun hinvalid => ?_
    cases hscan : popScan msg.hdr.bytes (ipcMsgHdrSize + 1) 0 ipcMsgHdrSize with
    | none =>
      refine absurd ?_ (hsafe.pop_ends 1)
      rw [waveIpcMsgPopHdr, hscan]
      rfl
    | some r =>
      have hbeyond := (popHdr_invalid hinvalid hscan).mp (hsafe.pop_fails hinvalid)
      exact rejects_iff.mpr ⟨r, hscan, hbeyond⟩
  · rintro (hvalid | hrejects)
    · have hinside := (validStack_iff msg).mp hvalid
      obtain ⟨r, hscan⟩ := popScan_valid (j := ipcMsgHdrSize) hinside (headerEnd_end (by omega))
      exact .of_scan hscan fun hinvalid => absurd hvalid hinvalid
    · obtain ⟨r, hscan, hbeyond⟩ := rejects_iff.mp hrejects
      exact .of_scan hscan fun _ => hbeyond

/-- A message whose header area begins with `bytes`. -/
def receivedWith (bytes : List UInt8) : WvIpcMsg :=
  { waveIpcMsgAlloc (Buffer.fill waveIpcBuffSize 0) with
    hdr := (Buffer.fill ipcMsgHdrSize 0).write 0 bytes }

/-- A header of 255 bytes brings the offset back to where it is. -/
theorem header255_loops : waveIpcMsgPopHdr (receivedWith [255]) 7 = .diverges ∧
    ¬HeaderSafe (receivedWith [255]) := by
  have hscan : popScan (receivedWith [255]).hdr.bytes (ipcMsgHdrSize + 1) 0 ipcMsgHdrSize =
      none := by
    decide
  have hloops : waveIpcMsgPopHdr (receivedWith [255]) 7 = .diverges := by
    rw [waveIpcMsgPopHdr, hscan]
    rfl
  exact ⟨hloops, fun hsafe => hsafe.pop_ends 7 hloops⟩

end Dwpal.Ipc
