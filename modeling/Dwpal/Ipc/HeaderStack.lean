import Dwpal.Ipc.Header

/-! The header area of a message as a stack of byte strings: what a sequence of pushes, pops and
peeks does to the area is what it does to the stack. -/

namespace Dwpal.Ipc

open Frames WvIpcMsg

/-- A byte string that can be pushed: its length is a `uint8_t` and not zero. -/
abbrev Header := { h : List UInt8 // Fits h }

/-- `wave_ipc_msg_push_hdr`, `wave_ipc_msg_pop_hdr` into a buffer of `room` bytes, and
`dwpald_header_peek`. -/
inductive HeaderOp where
  | push (h : Header)
  | pop (room : UInt8)
  | peek

inductive HeaderOut where
  | success
  | popped (bytes : List UInt8)
  | peeked (hdr : DwpaldHeader)
  | failed
deriving DecidableEq

/-- An operation on a message; `none` if it never returns. -/
def HeaderOp.run (msg : WvIpcMsg) : HeaderOp → Option (HeaderOut × WvIpcMsg)
  | .push h =>
    match waveIpcMsgPushHdr msg h with
    | (.success, msg) => some (.success, msg)
    | (_, msg) => some (.failed, msg)
  | .pop room =>
    match waveIpcMsgPopHdr msg room.toNat with
    | .diverges => none
    | .error => some (.failed, msg)
    | .popped bytes msg => some (.popped bytes, msg)
  | .peek =>
    match dwpaldHeaderPeek msg with
    | .diverges => none
    | .failed msg => some (.failed, msg)
    | .popped hdr msg => some (.peeked hdr, msg)

/-- The operations of a list one after the other. -/
def runHeaderOps (msg : WvIpcMsg) : List HeaderOp → Option (List HeaderOut × WvIpcMsg)
  | [] => some ([], msg)
  | op :: ops =>
    (op.run msg).bind fun (out, msg) =>
      (runHeaderOps msg ops).map fun (outs, msg) => (out :: outs, msg)

/-! The stack. -/

/-- A stack of byte strings, the top first. -/
abbrev HeaderStack := List (List UInt8)

/-- The bytes that a stack takes: those of a string, and one more. -/
def HeaderStack.size (stack : HeaderStack) : Nat :=
  (stack.map fun h => h.length + 1).sum

/-- The area that encodes a stack. -/
def HeaderStack.area (stack : HeaderStack) : List UInt8 :=
  encode stack.reverse ++ List.replicate (ipcMsgHdrSize - stack.size) 0

/-- An operation on a stack. The top that a peek takes for a header of the daemon's protocol stays;
another one that the peek has room for is lost. -/
def HeaderOp.onStack (stack : HeaderStack) : HeaderOp → HeaderOut × HeaderStack
  | .push h =>
    if HeaderStack.size (h.val :: stack) ≤ ipcMsgHdrSize then (.success, h.val :: stack)
    else (.failed, stack)
  | .pop room =>
    match stack with
    | [] => (.failed, [])
    | top :: rest => if top.length ≤ room.toNat then (.popped top, rest) else (.failed, top :: rest)
  | .peek =>
    match stack with
    | [] => (.failed, [])
    | top :: rest =>
      if top.length ≤ 7 then
        match DwpaldHeader.ofBytes top with
        | some hdr => (.peeked hdr, top :: rest)
        | none => (.failed, rest)
      else (.failed, top :: rest)

def stackHeaderOps (stack : HeaderStack) : List HeaderOp → List HeaderOut × HeaderStack
  | [] => ([], stack)
  | op :: ops =>
    let (out, stack) := op.onStack stack
    let (outs, stack) := stackHeaderOps stack ops
    (out :: outs, stack)

theorem HeaderStack.size_eq (stack : HeaderStack) : stack.size = (encode stack.reverse).length := by
  rw [size, length_encode, List.map_reverse, List.sum_reverse]

theorem HeaderStack.size_cons (h : List UInt8) (stack : HeaderStack) :
    size (h :: stack) = h.length + 1 + stack.size := rfl

theorem WvIpcMsg.Headers.area_eq {msg : WvIpcMsg} {stack : HeaderStack}
    (h : msg.Headers stack.reverse) : msg.hdr.bytes = stack.area := by
  rw [HeaderStack.area, HeaderStack.size_eq]
  exact h.area

section Failures

variable {msg : WvIpcMsg} {fs : List (List UInt8)} {h : List UInt8} {room : Nat}

/-- A push without room for the header. -/
theorem pushHdr_full (hmsg : msg.Headers fs)
    (hfull : ipcMsgHdrSize < (encode fs).length + (h.length + 1)) :
    waveIpcMsgPushHdr msg h = (.error, msg) := by
  have hroom := hmsg.room
  rw [waveIpcMsgPushHdr]
  split_ifs with hempty
  · rfl
  · simp only [hmsg.headerEnd_eq]
    by_cases hend : (encode fs).length ≥ ipcMsgHdrSize
    · rw [if_pos hend]
    · rw [if_neg hend, if_pos (by omega)]

theorem popHdr_empty (hmsg : msg.Headers []) : waveIpcMsgPopHdr msg room = .error := by
  have harea : msg.hdr.bytes = List.replicate 32 0 := by simpa [ipcMsgHdrSize] using hmsg.area
  have hscan : popScan msg.hdr.bytes (ipcMsgHdrSize + 1) 0 ipcMsgHdrSize = some (0, 32) := by
    rw [harea]
    rfl
  rw [waveIpcMsgPopHdr, hscan]
  simp

/-- A pop into a buffer that is too small for the top. -/
theorem popHdr_tooSmall (hmsg : msg.Headers (fs ++ [h])) (hroom : room < h.length) :
    waveIpcMsgPopHdr msg room = .error := by
  have hh : Fits h := hmsg.fits h (by simp)
  have hsize := hmsg.length_snoc
  rw [waveIpcMsgPopHdr, hmsg.popScan_eq]
  simp only [hmsg.getD_top, hh.toNat]
  split_ifs <;> rfl

end Failures

/-- The header that is recognised is the one with these bytes. -/
theorem DwpaldHeader.bytes_of_ofBytes {bytes : List UInt8} {hdr : DwpaldHeader}
    (h : ofBytes bytes = some hdr) : bytes = hdr.bytes := by
  rw [ofBytes.eq_def] at h
  split at h
  · split_ifs at h with hmagic
    cases h
    rw [hmagic]
    rfl
  · cases h

section Steps

variable {msg : WvIpcMsg} {stack : HeaderStack}

theorem push_onStack (hmsg : msg.Headers stack.reverse) (h : Header) :
    ∃ msg', (HeaderOp.push h).run msg = some (((HeaderOp.push h).onStack stack).1, msg') ∧
      msg'.Headers ((HeaderOp.push h).onStack stack).2.reverse := by
  rw [HeaderOp.run, HeaderOp.onStack, HeaderStack.size_cons, stack.size_eq]
  by_cases hroom : h.val.length + 1 + (encode stack.reverse).length ≤ ipcMsgHdrSize
  · obtain ⟨hret, hheaders⟩ := pushHdr_headers hmsg h.property (by omega)
    cases hpush : waveIpcMsgPushHdr msg h with
    | mk ret next =>
      rw [hpush] at hret hheaders
      cases hret
      rw [if_pos hroom, List.reverse_cons]
      exact ⟨next, rfl, hheaders⟩
  · rw [if_neg hroom, pushHdr_full hmsg (by omega)]
    exact ⟨msg, rfl, hmsg⟩

theorem pop_onStack (hmsg : msg.Headers stack.reverse) (room : UInt8) :
    ∃ msg', (HeaderOp.pop room).run msg = some (((HeaderOp.pop room).onStack stack).1, msg') ∧
      msg'.Headers ((HeaderOp.pop room).onStack stack).2.reverse := by
  cases stack with
  | nil =>
    rw [HeaderOp.run, popHdr_empty hmsg]
    exact ⟨msg, rfl, hmsg⟩
  | cons top rest =>
    have htop := hmsg
    rw [List.reverse_cons] at htop
    rw [HeaderOp.run, HeaderOp.onStack]
    by_cases hroom : top.length ≤ room.toNat
    · obtain ⟨msg', hpop, hheaders, -, -⟩ := popHdr_headers htop hroom
      rw [hpop, if_pos hroom]
      exact ⟨msg', rfl, hheaders⟩
    · rw [popHdr_tooSmall htop (by omega), if_neg hroom]
      exact ⟨msg, rfl, hmsg⟩

theorem peek_onStack (hmsg : msg.Headers stack.reverse) :
    ∃ msg', HeaderOp.peek.run msg = some ((HeaderOp.peek.onStack stack).1, msg') ∧
      msg'.Headers (HeaderOp.peek.onStack stack).2.reverse := by
  cases stack with
  | nil =>
    simp only [HeaderOp.run, dwpaldHeaderPeek, dwpaldHeaderPop, headerPop, popHdr_empty hmsg]
    exact ⟨msg, rfl, hmsg⟩
  | cons top rest =>
    have htop := hmsg
    rw [List.reverse_cons] at htop
    rw [HeaderOp.run, HeaderOp.onStack, dwpaldHeaderPeek, dwpaldHeaderPop, headerPop]
    by_cases hroom : top.length ≤ 7
    · obtain ⟨popped, hpop, hheaders, -, -⟩ := popHdr_headers htop hroom
      rw [if_pos hroom, hpop]
      cases hof : DwpaldHeader.ofBytes top with
      | none =>
        simp only [hof]
        exact ⟨popped, rfl, hheaders⟩
      | some hdr =>
        -- what was popped is pushed again
        have hbytes := DwpaldHeader.bytes_of_ofBytes hof
        have hfits : Fits hdr.bytes := hbytes ▸ htop.fits top (by simp)
        have hback : (encode rest.reverse).length + (hdr.bytes.length + 1) ≤ ipcMsgHdrSize :=
          hbytes ▸ htop.length_snoc
        obtain ⟨msg', hpush, hheaders', -, -⟩ := headerPush_headers hheaders hfits hback
        simp only [hof, dwpaldHeaderPush, hpush]
        refine ⟨msg', rfl, ?_⟩
        rw [List.reverse_cons, hbytes]
        exact hheaders'
    · rw [if_neg hroom, popHdr_tooSmall htop (by omega)]
      exact ⟨msg, rfl, hmsg⟩

theorem run_onStack (hmsg : msg.Headers stack.reverse) (op : HeaderOp) :
    ∃ msg', op.run msg = some ((op.onStack stack).1, msg') ∧
      msg'.Headers (op.onStack stack).2.reverse := by
  cases op with
  | push h => exact push_onStack hmsg h
  | pop room => exact pop_onStack hmsg room
  | peek => exact peek_onStack hmsg

theorem runHeaderOps_stack (hmsg : msg.Headers stack.reverse) (ops : List HeaderOp) :
    ∃ msg', runHeaderOps msg ops = some ((stackHeaderOps stack ops).1, msg') ∧
      msg'.Headers (stackHeaderOps stack ops).2.reverse := by
  induction ops generalizing msg stack with
  | nil => exact ⟨msg, rfl, hmsg⟩
  | cons op ops ih =>
    obtain ⟨next, hop, hnext⟩ := run_onStack hmsg op
    obtain ⟨msg', hops, hmsg'⟩ := ih hnext
    refine ⟨msg', ?_, hmsg'⟩
    rw [runHeaderOps, hop, Option.bind_some]
    dsimp only
    rw [hops]
    rfl

end Steps

/-- From a fresh message on, every operation returns what it returns on the stack, and the area
after the operations is the encoding of the stack after them. -/
theorem headerArea (stale : Buffer waveIpcBuffSize) (ops : List HeaderOp) :
    ∃ msg, runHeaderOps (waveIpcMsgAlloc stale) ops = some ((stackHeaderOps [] ops).1, msg) ∧
      msg.hdr.bytes = (stackHeaderOps [] ops).2.area := by
  obtain ⟨msg, hrun, hheaders⟩ := @runHeaderOps_stack _ [] (headers_alloc stale) ops
  exact ⟨msg, hrun, hheaders.area_eq⟩

end Dwpal.Ipc
