import Dwpal.Ext.Services

/-! Netlink commands of `dwpal_ext.c` and `dwpal.c`: the message of a command, which the call takes
over, through the attempts to send it and to receive the answer. -/

namespace Dwpal.Ext

open Daemon (DwpalRet)

/-- The context of the driver's interface: whether the socket for commands is not `NULL`, and its
descriptor. -/
structure DriverContext where
  nlSocketCmdGet : Bool
  fdCmdGet : Int

/-- What is done with the message: it is passed to `nl_send_auto`, or to `nlmsg_free`. -/
inductive MsgOp where
  | send
  | free
deriving DecidableEq

/-- `ENOENT`, `EAGAIN` and `NLE_DUMP_INTR`. -/
def enoent : Int := 2
def eagain : Int := 11
def nleDumpIntr : Int := 33

/-- A round of the loop that empties the socket: what `select` gives, and whether the callbacks for
a message that is there are allocated. -/
inductive CleanRound where
  | interrupted
  | failed
  | ready (cleanupCb : Bool)
  | clean

/-- A callback for a message that is received: `error_handler` with the error there is,
`ack_recv`, `finish_handler`, or one that does not write `*cmd_res`. -/
inductive Handler where
  | error (err : Option Int)
  | ack
  | finish
  | other

/-- A round of the loop that waits for the answer: what `select` gives, and for messages that are
there the callbacks called and the result of `nl_recvmsgs`. -/
inductive ReceiveRound where
  | interrupted
  | failed
  | timeout
  | ready (handlers : List Handler) (res : Int)

/-- What is below an attempt to send the message. -/
structure Attempt where
  cbAlloc : Bool
  cleaning : List CleanRound
  send : Int
  receiving : List ReceiveRound

/-- What a call returns, the value of `*cmd_res` after it, and what it did with the message. -/
structure Sent where
  ret : DwpalRet
  cmdRes : Option Int
  ops : List MsgOp
deriving DecidableEq

/-- What a callback writes to `*cmd_res`. -/
def Handler.writes : Handler → Option Int
  | .error err => err
  | .ack | .finish => some 0
  | .other => none

/-- The value of `*cmd_res` after a callback. -/
def Handler.run (cmdRes : Int) (handler : Handler) : Int :=
  handler.writes.getD cmdRes

/-- The loop that empties the socket, with whether it succeeds. -/
def cleanSocket : List CleanRound → Option Bool
  | [] => none
  | .interrupted :: rounds => cleanSocket rounds
  | .failed :: _ => some false
  | .ready cleanupCb :: rounds => if cleanupCb then cleanSocket rounds else some false
  | .clean :: _ => some true

/-- The loop that waits for the answer, with whether it succeeds and the value of `*cmd_res`. -/
def receiveAnswer (cmdRes : Int) : List ReceiveRound → Option (Bool × Int)
  | [] => if cmdRes ≤ 0 then some (true, cmdRes) else none
  | round :: rounds =>
    if cmdRes ≤ 0 then some (true, cmdRes)
    else
      match round with
      | .interrupted => receiveAnswer cmdRes rounds
      | .failed | .timeout => some (false, cmdRes)
      | .ready handlers res =>
        receiveAnswer (if res = -nleDumpIntr then -eagain else handlers.foldl Handler.run cmdRes)
          rounds

/-- `dwpal_nl80211_cmd_send`, with whether `msg` is not `NULL` and with `*cmd_res` if `cmd_res` is
not; `none` while it has not returned. -/
def dwpalNl80211CmdSend (a : Attempt) (context : Option DriverContext) (msg : Bool)
    (cmdRes : Option Int) : Option Sent :=
  match msg, cmdRes with
  | false, _ | _, none => some ⟨.failure, cmdRes, []⟩
  | true, some cmdRes =>
    -- the label `err`
    let err (cmdRes : Int) (ops : List MsgOp) : Sent := ⟨.failure, some cmdRes, ops ++ [.free]⟩
    match context with
    | none => some (err cmdRes [])
    | some context =>
      if context.nlSocketCmdGet = false then some (err cmdRes [])
      else if a.cbAlloc = false then some (err cmdRes [])
      else if context.fdCmdGet = -1 then some (err cmdRes [])
      else
        match cleanSocket a.cleaning with
        | none => none
        | some false => some (err cmdRes [])
        | some true =>
          if a.send < 0 then some (err cmdRes [.send])
          else
            match receiveAnswer 1 a.receiving with
            | none => none
            | some (false, cmdRes) => some (err cmdRes [.send])
            | some (true, cmdRes) => some ⟨.success, some cmdRes, [.send, .free]⟩

/-- `nlRecoveryNeeded`, with the tries left: the context of the next try. `attach` is the context
that `dwpal_driver_nl_attach` makes, if it succeeds; it replaces the old one whether or not that
could be detached. -/
def nlRecoveryNeeded (attach : Option DriverContext) (sent : Sent) (tries : Nat) :
    Option DriverContext :=
  if sent.ret ≠ .success then none
  else if sent.cmdRes ≠ some (-enoent) then none
  else if tries = 0 then none
  else attach

/-- The loop of `dwpal_ext_nl80211_cmd_send`. Try `tries + 1` is made with the first of
`below tries`, and the second is what the attach after it makes. -/
def sendTries (below : Nat → Attempt × Option DriverContext) (msg : Bool) :
    (tries : Nat) → (context : Option DriverContext) → (cmdRes : Option Int) → Option Sent
  | 0, _, _ => none
  | tries + 1, context, cmdRes =>
    match dwpalNl80211CmdSend (below tries).1 context msg cmdRes with
    | none => none
    | some sent =>
      match nlRecoveryNeeded (below tries).2 sent tries with
      | none => some sent
      | some context =>
        (sendTries below msg tries (some context) sent.cmdRes).map fun again =>
          { again with ops := sent.ops ++ again.ops }

/-- `dwpal_ext_nl80211_cmd_send`, where `context` is the context of the driver's interface, `NULL`
or not. -/
def dwpalExtNl80211CmdSend (below : Nat → Attempt × Option DriverContext) (t : Services)
    (context : Option DriverContext) (msg : Bool) (cmdRes : Option Int) : Option Sent :=
  if msg = false ∨ cmdRes = none then some ⟨.failure, cmdRes, []⟩
  else if interfaceIndexGet t .driver allName = none then some ⟨.interfaceIsDown, cmdRes, [.free]⟩
  else sendTries below msg 2 context cmdRes

/-- The message is freed once, and not passed on after that. -/
def Consumed (ops : List MsgOp) : Prop :=
  ∃ sends, ops = sends ++ [.free] ∧ .free ∉ sends

/-- The last that a round writes to `*cmd_res`. -/
def ReceiveRound.writes : ReceiveRound → Option Int
  | .interrupted | .failed | .timeout => none
  | .ready handlers res =>
    if res = -nleDumpIntr then some (-eagain)
    else handlers.foldl (fun written handler => handler.writes <|> written) none

/-- A round after which the emptying goes on. -/
def CleanRound.GoesOn (round : CleanRound) : Prop :=
  round = .interrupted ∨ round = .ready true

/-- A round after which the waiting goes on. -/
def ReceiveRound.Waits (round : ReceiveRound) : Prop :=
  round ≠ .failed ∧ round ≠ .timeout ∧ ∀ written, round.writes = some written → 0 < written

/-- The attempt is answered that the object of the command is not there. -/
structure AnsweredNoEntry (a : Attempt) (context : DriverContext) : Prop where
  nlSocketCmdGet : context.nlSocketCmdGet = true
  cbAlloc : a.cbAlloc = true
  fdCmdGet : context.fdCmdGet ≠ -1
  cleaned : ∃ rounds rest, a.cleaning = rounds ++ .clean :: rest ∧ ∀ round ∈ rounds, round.GoesOn
  sent : 0 ≤ a.send
  answered : ∃ rounds last rest, a.receiving = rounds ++ last :: rest ∧
    last.writes = some (-enoent) ∧ ∀ round ∈ rounds, round.Waits

section Attempts

theorem cleanSocket_true {rounds : List CleanRound} (h : cleanSocket rounds = some true) :
    ∃ before rest, rounds = before ++ .clean :: rest ∧ ∀ round ∈ before, round.GoesOn := by
  induction rounds with
  | nil => cases h
  | cons round rounds ih =>
    have hgoOn (hrest : cleanSocket rounds = some true) (hround : round.GoesOn) :
        ∃ before rest, round :: rounds = before ++ .clean :: rest ∧
          ∀ round ∈ before, round.GoesOn := by
      obtain ⟨before, rest, hsplit, hbefore⟩ := ih hrest
      refine ⟨round :: before, rest, by rw [hsplit]; rfl, ?_⟩
      rintro other (_ | ⟨_, hother⟩)
      · exact hround
      · exact hbefore other hother
    cases round with
    | interrupted => exact hgoOn h (.inl rfl)
    | failed => cases h
    | ready cleanupCb =>
      cases cleanupCb with
      | true => exact hgoOn h (.inr rfl)
      | false => cases h
    | clean => exact ⟨[], rounds, rfl, fun _ h => (by cases h)⟩

theorem cleanSocket_of_clean {before rest : List CleanRound}
    (hbefore : ∀ round ∈ before, round.GoesOn) :
    cleanSocket (before ++ .clean :: rest) = some true := by
  induction before with
  | nil => rfl
  | cons round before ih =>
    have hrest := ih fun other hother => hbefore other (.tail _ hother)
    rcases hbefore round (.head _) with rfl | rfl
    · exact hrest
    · exact hrest

theorem foldl_writes (handlers : List Handler) (cmdRes : Int) (written : Option Int) :
    handlers.foldl Handler.run (written.getD cmdRes) =
      (handlers.foldl (fun written handler => handler.writes <|> written) written).getD cmdRes := by
  induction handlers generalizing written with
  | nil => rfl
  | cons handler handlers ih =>
    rw [List.foldl_cons, List.foldl_cons, ← ih]
    cases hwrites : handler.writes with
    | none => rw [Handler.run, hwrites]; rfl
    | some err => rw [Handler.run, hwrites]; rfl

theorem ready_value (handlers : List Handler) (res cmdRes : Int) :
    (if res = -nleDumpIntr then -eagain else handlers.foldl Handler.run cmdRes) =
      (ReceiveRound.ready handlers res).writes.getD cmdRes := by
  rw [ReceiveRound.writes]
  split
  · rfl
  · exact foldl_writes handlers cmdRes none

theorem receiveAnswer_done {cmdRes : Int} (h : cmdRes ≤ 0) (rounds : List ReceiveRound) :
    receiveAnswer cmdRes rounds = some (true, cmdRes) := by
  cases rounds with
  | nil => rw [receiveAnswer, if_pos h]
  | cons round rounds => exact if_pos h

/-- A round that is ready goes on with what it writes. -/
theorem receiveAnswer_ready {cmdRes : Int} (h : 0 < cmdRes) (handlers : List Handler) (res : Int)
    (rounds : List ReceiveRound) :
    receiveAnswer cmdRes (.ready handlers res :: rounds) =
      receiveAnswer ((ReceiveRound.ready handlers res).writes.getD cmdRes) rounds := by
  rw [receiveAnswer, if_neg (by omega), ready_value]

theorem receiveAnswer_true {rounds : List ReceiveRound} {cmdRes answer : Int} (hpos : 0 < cmdRes)
    (h : receiveAnswer cmdRes rounds = some (true, answer)) :
    ∃ before last rest, rounds = before ++ last :: rest ∧ last.writes = some answer ∧
      ∀ round ∈ before, round.Waits := by
  induction rounds generalizing cmdRes with
  | nil =>
    rw [receiveAnswer, if_neg (by omega)] at h
    cases h
  | cons round rounds ih =>
    have hgoOn {value : Int} (hvalue : 0 < value)
        (hrest : receiveAnswer value rounds = some (true, answer))
        (hround : round.Waits) :
        ∃ before last rest, round :: rounds = before ++ last :: rest ∧
          last.writes = some answer ∧ ∀ round ∈ before, round.Waits := by
      obtain ⟨before, last, rest, hsplit, hlast, hbefore⟩ := ih hvalue hrest
      refine ⟨round :: before, last, rest, by rw [hsplit]; rfl, hlast, ?_⟩
      rintro other (_ | ⟨_, hother⟩)
      · exact hround
      · exact hbefore other hother
    cases round with
    | interrupted =>
      rw [receiveAnswer, if_neg (by omega)] at h
      exact hgoOn hpos h ⟨nofun, nofun, nofun⟩
    | failed =>
      rw [receiveAnswer, if_neg (by omega)] at h
      cases h
    | timeout =>
      rw [receiveAnswer, if_neg (by omega)] at h
      cases h
    | ready handlers res =>
      rw [receiveAnswer_ready hpos] at h
      obtain ⟨written, hwritten⟩ : ∃ written, written = (ReceiveRound.ready handlers res).writes :=
        ⟨_, rfl⟩
      rw [← hwritten] at h
      by_cases hdone : written.getD cmdRes ≤ 0
      · rw [receiveAnswer_done hdone] at h
        cases written with
        | none => exact absurd hdone (by simpa using hpos)
        | some value =>
          cases h
          exact ⟨[], _, rounds, rfl, hwritten.symm, fun _ h => (by cases h)⟩
      · refine hgoOn (by omega) h ⟨nofun, nofun, fun value hvalue => ?_⟩
        rw [← hwritten] at hvalue
        rw [hvalue] at hdone
        simpa using hdone

theorem receiveAnswer_of_waits {before rest : List ReceiveRound} {last : ReceiveRound}
    {cmdRes answer : Int} (hpos : 0 < cmdRes) (hanswer : answer ≤ 0)
    (hlast : last.writes = some answer) (hbefore : ∀ round ∈ before, round.Waits) :
    receiveAnswer cmdRes (before ++ last :: rest) = some (true, answer) := by
  induction before generalizing cmdRes with
  | nil =>
    cases last with
    | interrupted | failed | timeout => cases hlast
    | ready handlers res =>
      rw [List.nil_append, receiveAnswer_ready hpos, hlast]
      exact receiveAnswer_done hanswer rest
  | cons round before ih =>
    have hrest : ∀ round ∈ before, round.Waits := fun other hother => hbefore other (.tail _ hother)
    obtain ⟨hfailed, htimeout, hwrites⟩ := hbefore round (.head _)
    rw [List.cons_append]
    cases round with
    | failed => exact absurd rfl hfailed
    | timeout => exact absurd rfl htimeout
    | interrupted =>
      rw [receiveAnswer, if_neg (by omega)]
      exact ih hpos hrest
    | ready handlers res =>
      rw [receiveAnswer_ready hpos]
      refine ih ?_ hrest
      cases hwritten : (ReceiveRound.ready handlers res).writes with
      | none => exact hpos
      | some written => exact hwrites written hwritten

theorem consumed_free : Consumed [.free] := ⟨[], rfl, nofun⟩

theorem consumed_send : Consumed [.send, .free] := ⟨[.send], rfl, by decide⟩

variable {a : Attempt} {context : DriverContext} {cmdRes : Int} {sent : Sent}

/-- An attempt with a context that returns fails, or it sends the message and gets an answer. -/
theorem dwpalNl80211CmdSend_cases
    (h : dwpalNl80211CmdSend a (some context) true (some cmdRes) = some sent) :
    (sent.ret = .failure ∧ (sent.ops = [.free] ∨ sent.ops = [.send, .free])) ∨
    ∃ answer, sent = ⟨.success, some answer, [.send, .free]⟩ ∧ context.nlSocketCmdGet = true ∧
      a.cbAlloc = true ∧ context.fdCmdGet ≠ -1 ∧ cleanSocket a.cleaning = some true ∧
      0 ≤ a.send ∧ receiveAnswer 1 a.receiving = some (true, answer) := by
  simp only [dwpalNl80211CmdSend] at h
  by_cases hsocket : context.nlSocketCmdGet = false
  · rw [if_pos hsocket] at h
    cases h
    exact .inl ⟨rfl, .inl rfl⟩
  by_cases halloc : a.cbAlloc = false
  · rw [if_neg hsocket, if_pos halloc] at h
    cases h
    exact .inl ⟨rfl, .inl rfl⟩
  by_cases hfd : context.fdCmdGet = -1
  · rw [if_neg hsocket, if_neg halloc, if_pos hfd] at h
    cases h
    exact .inl ⟨rfl, .inl rfl⟩
  rw [if_neg hsocket, if_neg halloc, if_neg hfd] at h
  split at h
  · cases h
  · cases h
    exact .inl ⟨rfl, .inl rfl⟩
  · next hclean =>
    by_cases hsend : a.send < 0
    · rw [if_pos hsend] at h
      cases h
      exact .inl ⟨rfl, .inr rfl⟩
    rw [if_neg hsend] at h
    split at h
    · cases h
    · cases h
      exact .inl ⟨rfl, .inr rfl⟩
    · next answer hanswer =>
      cases h
      exact .inr ⟨answer, rfl, by simpa using hsocket, by simpa using halloc, hfd, hclean,
        Int.not_lt.mp hsend, hanswer⟩

/-- Every attempt that returns consumes the message. -/
theorem dwpalNl80211CmdSend_consumed {context : Option DriverContext}
    (h : dwpalNl80211CmdSend a context true (some cmdRes) = some sent) : Consumed sent.ops := by
  cases context with
  | none =>
    cases h
    exact consumed_free
  | some context =>
    rcases dwpalNl80211CmdSend_cases h with ⟨-, hops | hops⟩ | ⟨answer, rfl, -⟩
    · exact hops ▸ consumed_free
    · exact hops ▸ consumed_send
    · exact consumed_send

theorem AnsweredNoEntry.cmdSend_eq (h : AnsweredNoEntry a context) (cmdRes : Int) :
    dwpalNl80211CmdSend a (some context) true (some cmdRes) =
      some ⟨.success, some (-enoent), [.send, .free]⟩ := by
  obtain ⟨rounds, rest, hcleaning, hgoOn⟩ := h.cleaned
  obtain ⟨before, last, rest', hreceiving, hlast, hwaits⟩ := h.answered
  have hclean : cleanSocket a.cleaning = some true := by
    rw [hcleaning]
    exact cleanSocket_of_clean hgoOn
  have hanswer : receiveAnswer 1 a.receiving = some (true, -enoent) := by
    rw [hreceiving]
    exact receiveAnswer_of_waits (by decide) (by decide) hlast hwaits
  simp only [dwpalNl80211CmdSend, h.nlSocketCmdGet, h.cbAlloc, Bool.true_eq_false, if_false]
  rw [if_neg h.fdCmdGet, hclean]
  simp only [hanswer]
  rw [if_neg (Int.not_lt.mpr h.sent)]

/-- What an attempt gives when it is answered that the object is not there. -/
theorem answeredNoEntry_iff
    (h : dwpalNl80211CmdSend a (some context) true (some cmdRes) = some sent) :
    AnsweredNoEntry a context ↔ sent.ret = .success ∧ sent.cmdRes = some (-enoent) := by
  constructor
  · intro hanswered
    rw [hanswered.cmdSend_eq] at h
    cases h
    exact ⟨rfl, rfl⟩
  · rintro ⟨hret, hcmdRes⟩
    rcases dwpalNl80211CmdSend_cases h with
      ⟨hfailure, -⟩ | ⟨answer, rfl, hsocket, halloc, hfd, hclean, hsend, hanswer⟩
    · rw [hret] at hfailure
      cases hfailure
    · cases hcmdRes
      exact ⟨hsocket, halloc, hfd, cleanSocket_true hclean, hsend,
        receiveAnswer_true (by decide) hanswer⟩

end Attempts

section Message

variable {below : Nat → Attempt × Option DriverContext} {t : Services}
  {context : Option DriverContext} {cmdRes : Int} {sent : Sent}

/-- The message is not sent again: an attempt that is answered that the object is not there is not
followed by an attach that succeeds. -/
def NotSentAgain (below : Nat → Attempt × Option DriverContext) (t : Services)
    (context : Option DriverContext) : Prop :=
  interfaceIndexGet t .driver allName ≠ none → ∀ c, context = some c →
    AnsweredNoEntry (below 1).1 c → (below 1).2 = none

/-- The last try is not followed by another. -/
theorem sendTries_one : sendTries below true 1 context (some cmdRes) =
    dwpalNl80211CmdSend (below 0).1 context true (some cmdRes) := by
  rw [sendTries]
  cases dwpalNl80211CmdSend (below 0).1 context true (some cmdRes) with
  | none => rfl
  | some sent =>
    have hlast : nlRecoveryNeeded (below 0).2 sent 0 = none := by
      rw [nlRecoveryNeeded, if_pos rfl, ite_self, ite_self]
    simp only [hlast]

theorem nlRecoveryNeeded_some {attach : Option DriverContext} {c : DriverContext}
    (h : nlRecoveryNeeded attach sent 1 = some c) :
    sent.ret = .success ∧ sent.cmdRes = some (-enoent) ∧ attach = some c := by
  rw [nlRecoveryNeeded] at h
  split_ifs at h with hret hcmdRes
  exact ⟨not_not.mp hret, not_not.mp hcmdRes, h⟩

/-- A message that is consumed twice is not consumed. -/
theorem not_consumed_append {ops ops' : List MsgOp} (h : Consumed ops) (h' : Consumed ops') :
    ¬ Consumed (ops ++ ops') := by
  rintro ⟨sends, hsends, hnot⟩
  obtain ⟨first, rfl, -⟩ := h
  obtain ⟨second, rfl, -⟩ := h'
  rw [← List.append_assoc] at hsends
  have hequal := List.append_inj_left' hsends rfl
  exact hnot (hequal ▸ by simp)

/-- Of a call that returns, the message is passed on only while it is alive and freed once exactly
when it is not sent again. -/
theorem messageConsumed
    (h : dwpalExtNl80211CmdSend below t context true (some cmdRes) = some sent) :
    Consumed sent.ops ↔ NotSentAgain below t context := by
  rw [dwpalExtNl80211CmdSend, if_neg (by simp)] at h
  split_ifs at h with hdown
  · cases h
    exact iff_of_true consumed_free fun hup => absurd hdown hup
  · rw [sendTries] at h
    cases hfirst : dwpalNl80211CmdSend (below 1).1 context true (some cmdRes) with
    | none =>
      rw [hfirst] at h
      cases h
    | some first =>
      have hconsumed := dwpalNl80211CmdSend_consumed hfirst
      simp only [hfirst] at h
      cases hneeded : nlRecoveryNeeded (below 1).2 first 1 with
      | none =>
        simp only [hneeded] at h
        cases h
        refine iff_of_true hconsumed fun _ c hc hanswered => ?_
        subst hc
        obtain ⟨hret, hcmdRes⟩ := (answeredNoEntry_iff hfirst).mp hanswered
        rw [nlRecoveryNeeded, if_neg (not_not.mpr hret), if_neg (not_not.mpr hcmdRes),
          if_neg (by decide)] at hneeded
        exact hneeded
      | some again =>
        obtain ⟨hret, hcmdRes, hattach⟩ := nlRecoveryNeeded_some hneeded
        simp only [hneeded, hcmdRes, sendTries_one] at h
        obtain ⟨second, hsecond, rfl⟩ := Option.map_eq_some_iff.mp h
        refine iff_of_false
          (not_consumed_append hconsumed (dwpalNl80211CmdSend_consumed hsecond)) fun hsafe => ?_
        cases context with
        | none =>
          cases hfirst
          cases hret
        | some c =>
          have hnone := hsafe hdown c rfl ((answeredNoEntry_iff hfirst).mpr ⟨hret, hcmdRes⟩)
          rw [hattach] at hnone
          cases hnone

/-- A driver's service is there. -/
def driverServices : Services :=
  Function.update (fun _ => ⟨none, false⟩) 0 ⟨some (newService .driver allName), true⟩

/-- An attempt with the answer `err`. -/
def answeredWith (err : Int) : Attempt where
  cbAlloc := true
  cleaning := [.clean]
  send := 36
  receiving := [.ready [.error (some err)] 0]

/-- A command that is accepted. -/
theorem messageConsumed_accepted : Consumed [.send, .free] :=
  (@messageConsumed (fun _ => (answeredWith 0, none)) driverServices (some ⟨true, 5⟩) 0
    ⟨.success, some 0, [.send, .free]⟩ (by decide)).mpr fun _ _ _ _ => rfl

/-- The message of a command that is answered with `-ENOENT` is sent again after it was freed, and
freed again. -/
theorem notThere_sentAgain : ¬ ∀ below t context cmdRes sent,
    dwpalExtNl80211CmdSend below t context true (some cmdRes) = some sent → Consumed sent.ops := by
  intro h
  have hconsumed := h (fun _ => (answeredWith (-2), some ⟨true, 6⟩)) driverServices (some ⟨true, 5⟩)
    0 ⟨.success, some (-2), [.send, .free, .send, .free]⟩ (by decide)
  exact not_consumed_append consumed_send consumed_send hconsumed

end Message

end Dwpal.Ext
