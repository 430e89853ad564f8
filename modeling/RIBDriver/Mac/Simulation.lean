import RIBDriver.Mac.Renaming

/-!
# One step of both drivers

From a renamed state the MAC driver takes the renamed step, with an answer that
is computed from that of the routing driver.
-/

namespace RIBDriver
namespace Renaming

variable {client reader file : Type _} (R : Renaming)

/-!
## Calls and threads
-/

def writerOp : Ioctl.WriterOp -> Mac.WriterOp
  | .update msg => .update (R.update msg)
  | .create e => .create (R.entry e)
  | .purge => .purge

def request : Ioctl.Request -> Mac.Request
  | .write op => .write (R.writerOp op)
  | .subscribe => .subscribe

def clientPc : Ioctl.ClientPc -> Mac.ClientPc
  | .user => .user
  | .clamp => .clamp
  | .lockQ req => .lockQ (R.request req)
  | .enq req => .enq (R.request req)
  | .unlockQ req => .unlockQ (R.request req)
  | .wait req => .wait (R.request req)
  | .lockTable op => .lockTable (R.writerOp op)
  | .apply op => .apply (R.writerOp op)
  | .unlockTable => .unlockTable
  | .handBack => .handBack
  | .copy => .copy
  | .downCs => .downCs
  | .test => .test
  | .cleanUp => .cleanUp
  | .signal => .signal
  | .decLoad last => .decLoad last
  | .decStore last loaded => .decStore last loaded
  | .upCs => .upCs

def action : Driver.Action client reader file -> Mac.Action client reader file
  | .openFile f => .openFile f
  | .ioctl (.call t req) => .call t (R.request req)
  | .ioctl (.client t) => .client t
  | .ioctl (.interrupt t) => .interrupt t
  | .ioctl (.worker allocOk) => .worker allocOk
  | .poll (.poll f nonblock interrupted) => .poll f nonblock interrupted
  | .poll (.readEntry t f allocOk interrupted) =>
      .readEntry t f allocOk interrupted
  | .poll (.readCopy t) => .readCopy t
  | .poll (.readExit t interrupted) => .readExit t interrupted
  | .poll (.write msg) => .write (R.update msg)
  | .pollInterrupted => .pollInterrupted
  | .inaccessible => .inaccessible
  | .infoCall t => .infoCall t
  | .infoRead t => .infoRead t

def state (s : Driver.State client reader file) :
    Mac.State client reader file where
  g := R.globals s.g
  pc := R.clientPc ∘ s.mixed.ioctl.pc
  worker := s.mixed.ioctl.worker
  completion := List.length ∘ s.mixed.ioctl.completion
  readPc := s.mixed.poll.pc
  privateData := s.privateData
  info := s.info
  ioctlRc := s.ioctlRc
  readRc := s.readRc

def outcome : Outcome RtUserRecord -> Outcome MacUserRecord
  | .continues => .continues
  | .returns rc => .returns rc
  | .wrote size =>
      .wrote (if size = sizeofRtUpdate then sizeofMacUpdate else size)
  | .copied records => .copied (records.map R.userRecord)
  | .informed fields => .informed fields

def macOutcome [DecidableEq file] (s : Driver.State client reader file)
    (a : Driver.Action client reader file) : Outcome MacUserRecord :=
  match Driver.outcome s a with
  | .copied _ => .copied (R.globals s.g).copiedRecords
  | .informed fields =>
      .informed (fields.filter fun f => f.1 != .noOfPollingReaders)
  | o => R.outcome o

section Threads

variable {R}

theorem role_request (req : Ioctl.Request) : (R.request req).role = req.role := by
  cases req <;> rfl

theorem firstPc_request (req : Ioctl.Request) :
    Mac.firstPc (R.request req) = R.clientPc (Ioctl.firstPc req) := by
  cases req <;> rfl

theorem afterWait_request (req : Ioctl.Request) :
    Mac.afterWait (R.request req) = R.clientPc (Ioctl.afterWait req) := by
  cases req with
  | write op => cases op <;> rfl
  | subscribe => rfl

theorem afterApply_writerOp (op : Ioctl.WriterOp) :
    Mac.afterApply (R.writerOp op) = R.clientPc (Ioctl.afterApply op) := by
  cases op <;> rfl

theorem perform_writerOp (t : RtTable file) (op : Ioctl.WriterOp) :
    (R.writerOp op).perform (R.table t) = R.table (op.perform t) := by
  cases op with
  | update msg => exact (table_apply t msg).symm
  | create e => exact (table_add t e).symm
  | purge => exact (table_purge t).symm

theorem state_init :
    R.state (Driver.State.init : Driver.State client reader file) =
      Mac.State.init := rfl

end Threads

/-!
## The ioctl side
-/

def afterIoctl (s : Driver.State client reader file)
    (u : Ioctl.State client file) (rc : client -> Nat) :
    Driver.State client reader file :=
  { s with
    mixed := { ioctl := u, poll := { s.mixed.poll with g := u.g }, shared := rfl }
    ioctlRc := rc }

section Ioctl

variable {R} {fileOf : client -> file}
variable (s : Driver.State client reader file) (u : Ioctl.State client file)

theorem state_goto [DecidableEq client]
    (t : client) (p : Ioctl.ClientPc) (rc : client -> Nat) :
    R.state (afterIoctl s (u.goto t p) rc) =
      (R.state (afterIoctl s u rc)).goto t (R.clientPc p) := by
  simp only [state, afterIoctl, Mac.State.goto, Ioctl.State.goto,
    Function.comp_update, Driver.State.g]

theorem state_setG (g : Globals file) :
    R.state (afterIoctl s { s.mixed.ioctl with g := g } s.ioctlRc) =
      (R.state s).setG (R.globals g) := rfl

theorem downQueue_map {out : Type _} (role : Role)
    {f : Ioctl.State client file -> out} {f' : MacGlobals file -> out}
    (h : forall g, f' (R.globals g) = f { s.mixed.ioctl with g := g }) :
    ((R.state s).g.downQueue role).map f' =
      (s.mixed.ioctl.downQueue role).map f := by
  unfold MacGlobals.downQueue Ioctl.State.downQueue
  show (if s.mixed.ioctl.queueSem role = 0 then none else some _).map f' = _
  split
  · rfl
  · exact congrArg some (h (s.g.setQueue role
      ((s.g.queue role).setSem (s.mixed.ioctl.queueSem role - 1))))

variable [DecidableEq file]

theorem complete_state (f : file) (role : Role) :
    (R.state s).complete f =
      R.state (afterIoctl s (s.mixed.ioctl.complete f role) s.ioctlRc) := by
  have hcompletion : List.length ∘ Function.update s.mixed.ioctl.completion f
      (s.mixed.ioctl.completion f ++ [role]) =
        Function.update (R.state s).completion f
          ((R.state s).completion f + 1) := by
    rw [Function.comp_update, List.length_append]
    rfl
  unfold Mac.State.complete
  rw [← hcompletion]
  rfl

theorem workerStep_state (allocOk : Bool) :
    Mac.workerStep (R.state s) allocOk =
      (Ioctl.workerStep s.mixed.ioctl allocOk).map fun u =>
        R.state (afterIoctl s u s.ioctlRc) := by
  have hmac : (R.state s).worker = s.mixed.ioctl.worker := rfl
  unfold Mac.workerStep Ioctl.workerStep
  rw [hmac]
  cases hw : s.mixed.ioctl.worker with
  | waitWriter =>
      show (if s.mixed.ioctl.g.writerQ.ring.isQueueEmpty then none
        else some _) = _
      split <;> rfl
  | lockWriterQ =>
      simp only [Option.map_map]
      apply downQueue_map
      intro g
      rfl
  | dequeWriter => rfl
  | unlockWriterQ f => rfl
  | completeWriter f =>
      simp only [Option.map_some, complete_state s f .writer]
      rfl
  | waitWriterDone =>
      show (if s.mixed.ioctl.g.workerDone = 0 then none else some _) = _
      split <;> rfl
  | lockReaderQ =>
      simp only [Option.map_map]
      apply downQueue_map
      intro g
      rfl
  | countReaders => rfl
  | unlockReaderQ => rfl
  | testReaders => rfl
  | emptyChangeList => rfl
  | snapshot =>
      simp only [Option.map_some]
      show some (((R.state s).setG
        ((R.globals s.g).refreshUpdateVector allocOk)).setWorker _) = _
      rw [← globals_refresh]
      rfl
  | loadReaders => rfl
  | lockGrant i n =>
      simp only [Option.map_map]
      apply downQueue_map
      intro g
      rfl
  | dequeGrant i n => rfl
  | unlockGrant i n reader => rfl
  | completeGrant i n f =>
      simp only [Option.map_some, complete_state s f .reader]
      rfl
  | waitReadersDone =>
      show (if s.mixed.ioctl.g.workerDone = 0 then none else some _) = _
      split <;> rfl
  | crashed => rfl

variable [DecidableEq client]

theorem clientStep_state (t : client) :
    Mac.clientStep fileOf (R.state s) t =
      (Ioctl.clientStep fileOf s.mixed.ioctl t).map fun u =>
        (R.state (afterIoctl s u (Driver.ioctlRcAfter s (.client t))),
          R.macOutcome s (.ioctl (.client t))) := by
  have hmac : (R.state s).pc t = R.clientPc (s.mixed.ioctl.pc t) := rfl
  unfold Mac.clientStep Ioctl.clientStep macOutcome
  simp only [hmac, Driver.ioctlRcAfter, Driver.outcome, Driver.ioctlOutcome]
  cases hpc : s.mixed.ioctl.pc t with
  | user => rfl
  | clamp =>
      simp only [clientPc, reduceCtorEq, if_false, Option.map_some, state_goto,
        state_setG, globals_clamp]
      rfl
  | lockQ req =>
      simp only [clientPc, reduceCtorEq, if_false, Option.map_map, role_request]
      apply downQueue_map
      intro g
      rw [Function.comp_apply, state_goto, state_setG]
      rfl
  | enq req =>
      simp only [clientPc, reduceCtorEq, if_false, Option.map_some, state_goto]
      rw [role_request]
      rfl
  | unlockQ req =>
      simp only [clientPc, reduceCtorEq, if_false, Option.map_some, state_goto]
      rw [role_request]
      rfl
  | wait req =>
      simp only [clientPc, reduceCtorEq, if_false, afterWait_request]
      have hlen : (R.state s).completion (fileOf t) =
          (s.mixed.ioctl.completion (fileOf t)).length := rfl
      rw [hlen]
      cases hdone : s.mixed.ioctl.completion (fileOf t) with
      | nil => rfl
      | cons issued rest =>
          simp only [List.length_cons, Nat.add_one_ne_zero, if_false,
            Option.map_some, state_goto, Nat.add_one_sub_one]
          have hcompletion : Function.update (R.state s).completion (fileOf t)
              rest.length = List.length ∘
                Function.update s.mixed.ioctl.completion (fileOf t) rest :=
            (Function.comp_update _ _ _ _).symm
          rw [hcompletion]
          rfl
  | lockTable op =>
      simp only [clientPc, reduceCtorEq, if_false]
      show (if s.mixed.ioctl.g.sem = 0 then none else some _) = _
      split
      · rfl
      · simp only [Option.map_some, state_goto]
        rfl
  | apply op =>
      simp only [clientPc, reduceCtorEq, if_false, Option.map_some, state_goto,
        afterApply_writerOp]
      show some (((R.state s).setG { R.globals s.g with
        table := (R.writerOp op).perform (R.table s.g.table) }).goto t _, _) = _
      rw [perform_writerOp]
      rfl
  | unlockTable =>
      simp only [clientPc, reduceCtorEq, if_false, Option.map_some, state_goto]
      rfl
  | handBack =>
      simp only [clientPc, reduceCtorEq, if_false, Option.map_some, state_goto]
      rfl
  | copy =>
      simp only [clientPc, if_true, Option.map_some, state_goto]
      rfl
  | downCs =>
      simp only [clientPc, reduceCtorEq, if_false]
      show (if s.mixed.ioctl.g.rtSerializeReadersCsSem = 0 then none
        else some _) = _
      split
      · rfl
      · simp only [Option.map_some, state_goto]
        rfl
  | test =>
      simp only [clientPc, reduceCtorEq, if_false, Option.map_some, state_goto]
      show some ((R.state s).goto t
        (if s.mixed.ioctl.g.nReadersToBeService = 1 then _ else _), _) = _
      split <;> rfl
  | cleanUp =>
      simp only [clientPc, reduceCtorEq, if_false, Option.map_some, state_goto]
      rfl
  | signal =>
      simp only [clientPc, reduceCtorEq, if_false, Option.map_some, state_goto]
      rfl
  | decLoad last =>
      simp only [clientPc, reduceCtorEq, if_false, Option.map_some, state_goto]
      rfl
  | decStore last loaded =>
      simp only [clientPc, reduceCtorEq, if_false, Option.map_some, state_goto]
      rfl
  | upCs =>
      simp only [clientPc, reduceCtorEq, if_false, Option.map_some, state_goto]
      rfl

theorem interruptStep_state (t : client) :
    Mac.interruptStep (R.state s) t =
      (Ioctl.interruptStep s.mixed.ioctl t).map fun u =>
        (R.state (afterIoctl s u (Driver.ioctlRcAfter s (.interrupt t))),
          R.macOutcome s (.ioctl (.interrupt t))) := by
  have hmac : (R.state s).pc t = R.clientPc (s.mixed.ioctl.pc t) := rfl
  unfold Mac.interruptStep Ioctl.interruptStep macOutcome
  simp only [hmac, Driver.ioctlRcAfter, Driver.outcome, Driver.ioctlOutcome]
  cases hpc : s.mixed.ioctl.pc t with
  | lockQ req =>
      simp only [clientPc, Option.map_some, state_goto]
      rfl
  | lockTable op =>
      simp only [clientPc, Option.map_some, state_goto]
      rfl
  | downCs =>
      simp only [clientPc, Option.map_some, state_goto]
      rfl
  | _ => rfl

end Ioctl

/-!
## The poll side
-/

theorem shared_self (s : Driver.State client reader file)
    (u : Poll.State reader file) :
    u.g = ({ s.mixed.ioctl with g := u.g } : Ioctl.State client file).g := rfl

def afterPoll (s : Driver.State client reader file)
    (u : Poll.State reader file) (rc : reader -> Nat) :
    Driver.State client reader file :=
  { s with
    mixed := {
      ioctl := { s.mixed.ioctl with g := u.g }
      poll := u
      shared := shared_self s u }
    readRc := rc }

section Poll

variable [DecidableEq client] [DecidableEq reader] [DecidableEq file]
variable [Fintype reader] {R} {fileOf : client -> file}
variable (s : Driver.State client reader file)

theorem pollStep_state (a : Poll.Action reader file) :
    Mac.step fileOf (R.state s) (R.action (.poll a)) =
      (Poll.step s.mixed.poll a).map fun u =>
        (R.state (afterPoll s u (Driver.readRcAfter s a)),
          R.macOutcome s (.poll a)) := by
  have hshared : s.mixed.poll.g = s.g := s.mixed.shared
  have hsem : (R.state s).g.macSerializeReadersCsSem =
      s.g.rtSerializeReadersCsSem := rfl
  have hrw : (R.state s).g.rwSem = s.g.rwSem := rfl
  cases a with
  | poll f nonblock interrupted =>
      have hpoll : (R.state s).g.macPoll f nonblock interrupted = _ :=
        globals_poll s.g f nonblock interrupted
      simp only [action, Mac.step, hpoll, Poll.step, Poll.pollStep, hshared]
      show (if s.g.rtSerializeReadersCsSem = 0 ∨
        (s.g.sem = 0 ∧ interrupted = false) then none else some _) = _
      split <;> rfl
  | readEntry t f allocOk interrupted =>
      have hentry : (R.state s).g.macReadEntry allocOk = _ :=
        (globals_readEntry s.g allocOk).symm
      have hpc : (R.state s).readPc t = s.mixed.poll.pc t := rfl
      simp only [action, Mac.step, Mac.readEntryStep, hentry, hpc, hrw, hsem,
        Poll.step, Poll.readEntryStep, hshared]
      split
      · rfl
      · cases interrupted with
        | true => rfl
        | false =>
            simp only [Bool.false_eq_true, if_false]
            split <;> rfl
  | readCopy t =>
      have hpc : (R.state s).readPc t = s.mixed.poll.pc t := rfl
      simp only [action, Mac.step, Mac.readCopyStep, hpc, Poll.step,
        Poll.readCopyStep]
      cases s.mixed.poll.pc t with
      | copy f =>
          simp only [Option.map_some, hshared]
          rfl
      | _ => rfl
  | readExit t interrupted =>
      have hpc : (R.state s).readPc t = s.mixed.poll.pc t := rfl
      have hcount : (R.state s).g.macGetPollReaderCount =
          s.g.rtGetPollReaderCount := rfl
      simp only [action, Mac.step, Mac.readExitStep, hpc, hsem, hcount,
        Poll.step, Poll.readExitStep, hshared]
      cases s.mixed.poll.pc t with
      | exit f =>
          have hexit : (R.state s).g.macReadExit f = _ :=
            (globals_readExit s.g f).symm
          simp only [hexit]
          cases interrupted with
          | true => rfl
          | false =>
              simp only [Bool.false_eq_true, if_false, macOutcome,
                Driver.outcome, Driver.pollOutcome]
              split
              · rfl
              · split <;> rfl
      | _ => rfl
  | write msg =>
      simp only [action, Mac.step, Poll.step, Poll.writeStep, hshared]
      show (if s.g.rwSem.readers ≠ 0 ∨ s.g.rwSem.writer = true then none
        else some ((R.state s).setG ((R.globals s.g).macWrite (R.update msg)), _))
          = _
      rw [← globals_write]
      split <;> rfl

end Poll

/-!
## Every step
-/

section Steps

variable {R} {fileOf : client -> file}
variable (s : Driver.State client reader file)

theorem isUser_state (t : client) :
    ((R.state s).pc t == .user) = (s.mixed.ioctl.pc t == .user) := by
  have hmac : (R.state s).pc t = R.clientPc (s.mixed.ioctl.pc t) := rfl
  rw [hmac]
  cases s.mixed.ioctl.pc t <;> rfl

variable [DecidableEq client]

theorem callStep_state (t : client) (req : Ioctl.Request) :
    Mac.callStep fileOf (R.state s) t (R.request req) =
      if s.privateData (fileOf t) && s.info t == .idle then
        (Ioctl.callStep s.mixed.ioctl t req).map fun u =>
          (R.state (afterIoctl s u s.ioctlRc), .continues)
      else none := by
  unfold Mac.callStep
  rw [isUser_state, firstPc_request]
  show (if s.privateData (fileOf t) && s.info t == .idle && _ then some _
    else none) = _
  by_cases hopen : (s.privateData (fileOf t) && s.info t == .idle) = true
  · rw [hopen, if_pos rfl, Bool.true_and]
    unfold Ioctl.callStep
    cases hpc : s.mixed.ioctl.pc t with
    | user =>
        simp only [beq_self_eq_true, if_true, Option.map_some, state_goto]
        rfl
    | _ => rfl
  · rw [if_neg hopen, Bool.eq_false_iff.mpr hopen]
    rfl

variable [DecidableEq reader]

theorem info_globals (g : Globals file) (head : Option Nat) :
    (R.globals g).macInfo head =
      (g.rtInfo head).filter fun f => f.1 != .noOfPollingReaders := by
  have hactual : MacGlobals.actualNodeCount (R.globals g).table head =
      Globals.actualNodeCount g.table head := by
    cases head <;> rfl
  have hpending : getNodeCountSinglyLl (R.globals g).table.macChangeList =
      getNodeCountSinglyLl g.table.rtChangeList := List.length_map _
  unfold MacGlobals.macInfo
  rw [hactual, hpending]
  rfl

variable [DecidableEq file] [Fintype reader]

theorem infoReadStep_state (t : client) :
    Mac.infoReadStep (R.state s) t =
      (Driver.next fileOf s (.infoRead t)).map fun u =>
        (R.state u, R.macOutcome s (.infoRead t)) := by
  have hinfo : (R.state s).info t = s.info t := rfl
  simp only [Mac.infoReadStep, hinfo, Driver.next, macOutcome, Driver.outcome]
  cases s.info t with
  | idle => rfl
  | downRead head =>
      have hfields : (R.state s).g.macInfo head = _ := info_globals s.g head
      show (if s.g.rwSem.writer then none
        else some (_, Outcome.informed ((R.state s).g.macInfo head))) = _
      rw [hfields]
      cases s.g.rwSem.writer <;> rfl

/-- The renamed state takes the renamed step. -/
theorem step_state (a : Driver.Action client reader file) :
    Mac.step fileOf (R.state s) (R.action a) =
      (Driver.next fileOf s a).map fun u => (R.state u, R.macOutcome s a) := by
  cases a with
  | openFile f =>
      show (if s.privateData f then none else some _) = Option.map _
        (if s.privateData f then none else some _)
      split
      · rfl
      · have hcompletion : List.length ∘
            Function.update s.mixed.ioctl.completion f [] =
              Function.update (R.state s).completion f 0 :=
          Function.comp_update _ _ _ _
        simp only [Option.map_some, state, Driver.State.openFile,
          Driver.State.g, hcompletion]
        rfl
  | ioctl a =>
      cases a with
      | call t req =>
          have hstep : Mac.step fileOf (R.state s)
              (R.action (.ioctl (.call t req))) = _ := callStep_state s t req
          rw [hstep]
          show _ = Option.map _
            (if s.privateData (fileOf t) && s.info t == .idle then
              (Option.map _ (Ioctl.callStep s.mixed.ioctl t req)).map _
            else none)
          split
          · rw [Option.map_map, Option.map_map]
            rfl
          · rfl
      | client t =>
          have hstep : Mac.step fileOf (R.state s) (R.action (.ioctl (.client t)))
              = _ := clientStep_state s t
          rw [hstep]
          show _ = ((Option.map _ (Ioctl.clientStep fileOf s.mixed.ioctl t)).map
            _).map _
          rw [Option.map_map, Option.map_map]
          rfl
      | interrupt t =>
          have hstep : Mac.step fileOf (R.state s)
              (R.action (.ioctl (.interrupt t))) = _ := interruptStep_state s t
          rw [hstep]
          show _ = ((Option.map _ (Ioctl.interruptStep s.mixed.ioctl t)).map
            _).map _
          rw [Option.map_map, Option.map_map]
          rfl
      | worker allocOk =>
          show (Mac.workerStep (R.state s) allocOk).map _ =
            ((Option.map _ (Ioctl.workerStep s.mixed.ioctl allocOk)).map _).map _
          rw [workerStep_state, Option.map_map, Option.map_map, Option.map_map]
          rfl
  | poll a =>
      rw [pollStep_state]
      show _ = ((Option.map _ (Poll.step s.mixed.poll a)).map _).map _
      rw [Option.map_map, Option.map_map]
      rfl
  | pollInterrupted => rfl
  | inaccessible => rfl
  | infoCall t =>
      show (if s.privateData (fileOf t) && s.info t == .idle &&
        (R.state s).pc t == .user then some _ else none) = Option.map _
          (if s.privateData (fileOf t) && s.info t == .idle &&
            s.mixed.ioctl.pc t == .user then some _ else none)
      rw [isUser_state]
      split <;> rfl
  | infoRead t => exact infoReadStep_state s t

end Steps

end Renaming
end RIBDriver
