import RIBDriver.Rt.Ioctl.Grants

/-!
# Writers take effect in arrival order

What the writers do to the table is stated on plain lists of entries; a table
reached by the scheduler is the result of the operations performed so far, and
these are performed in the order in which `enqueue` accepted the writers.
-/

namespace RIBDriver
namespace Ioctl

open Counting

variable {thread file : Type _}

/-!
## Operations on a list of entries
-/

/-- A table that is no more than its entries, head first. -/
def WriterOp.effect (entries : List RtEntry) : WriterOp -> List RtEntry
  | .update msg =>
      if msg.opCode = rtRouteAdd then msg.entry :: entries else entries
  | .create entry => entry :: entries
  | .purge => []

def serialTable (ops : List WriterOp) : List RtEntry :=
  ops.foldl WriterOp.effect []

theorem serialTable_append (ops : List WriterOp) (op : WriterOp) :
    serialTable (ops ++ [op]) = op.effect (serialTable ops) := by
  simp [serialTable]

theorem sound_perform {t : RtTable file} (h : t.Sound) (op : WriterOp) :
    (op.perform t).Sound := by
  cases op with
  | update msg => exact RtTable.sound_apply h msg
  | create entry => exact RtTable.sound_add h entry
  | purge => exact RtTable.sound_purge h

theorem cells_perform {t : RtTable file} (h : t.Sound) {entries : List RtEntry}
    (hcells : t.cells = entries.map EntryCell.live) (op : WriterOp) :
    (op.perform t).cells = (op.effect entries).map EntryCell.live := by
  cases op with
  | update msg =>
      simp only [WriterOp.perform, RtTable.applyRtUpdates, WriterOp.effect]
      split
      · rw [RtTable.cells_add h, hcells, List.map_cons]
      · exact hcells
  | create entry =>
      simp only [WriterOp.perform, WriterOp.effect]
      rw [RtTable.cells_add h, hcells, List.map_cons]
  | purge => exact RtTable.cells_purge t

/-!
## What a step does to the table
-/

inductive TableChange (s : State thread file) (a : Action thread)
    (u : State thread file) : Prop where
  | same (htable : u.g.table = s.g.table) (hdone : u.performed = s.performed)
  | performed (t : thread) (op : WriterOp) (hact : a = .client t)
      (hpc : s.pc t = .apply op) (htable : u.g.table = op.perform s.g.table)
      (hdone : u.performed = s.performed ++ [(t, op)])
  | emptied (htable : u.g.table = s.g.table.rtEmptyChangeList)
      (hdone : u.performed = s.performed)

section Table

variable {fileOf : thread -> file} {s u : State thread file}
variable {a : Action thread}

structure Refined (s : State thread file) : Prop where
  sound : s.g.table.Sound
  cells : s.g.table.cells =
    (serialTable (s.performed.map Prod.snd)).map EntryCell.live

theorem refined_init : Refined (State.init : State thread file) where
  sound := RtTable.sound_init
  cells := rfl

variable [DecidableEq thread] [DecidableEq file]

theorem tableChange_of_move (h : Move fileOf s a u) : TableChange s a u := by
  cases h with
  | clamp hpc =>
      refine TableChange.same ?_ rfl
      show (Globals.clampUpdateVectorCount s.g).table = s.g.table
      unfold Globals.clampUpdateVectorCount
      split <;> rfl
  | apply hpc => exact TableChange.performed _ _ rfl hpc rfl rfl
  | cleanUp hpc => exact TableChange.emptied rfl rfl
  | emptyChangeList hw => exact TableChange.emptied rfl rfl
  | snapshot hw =>
      refine TableChange.same ?_ rfl
      show (Globals.refreshUpdateVector s.g _).table = s.g.table
      unfold Globals.refreshUpdateVector
      split <;> rfl
  | _ => exact TableChange.same rfl rfl

theorem table_of_apply {t : thread} {op : WriterOp}
    (h : Move fileOf s (.client t) u) (hpc : s.pc t = .apply op) :
    u.g.table = op.perform s.g.table := by
  cases h with
  | apply hop =>
      rw [hpc] at hop
      cases hop
      rfl
  | _ => simp_all

theorem sound_of_move (h : s.g.table.Sound) (hmove : Move fileOf s a u) :
    u.g.table.Sound := by
  cases tableChange_of_move hmove with
  | same htable hdone =>
      rw [htable]
      exact h
  | performed t op hact hpc htable hdone =>
      rw [htable]
      exact sound_perform h op
  | emptied htable hdone =>
      rw [htable]
      exact RtTable.sound_empty h

theorem refined_step (h : Refined s) (hmove : Move fileOf s a u) :
    Refined u := by
  constructor
  · exact sound_of_move h.sound hmove
  · cases tableChange_of_move hmove with
    | same htable hdone =>
        rw [htable, hdone]
        exact h.cells
    | performed t op hact hpc htable hdone =>
        rw [htable, hdone, List.map_append, List.map_singleton,
          serialTable_append]
        exact cells_perform h.sound h.cells op
    | emptied htable hdone =>
        rw [htable, hdone]
        exact h.cells

end Table

/-!
## The writers not performed yet
-/

namespace ClientPc

def isToPerform : ClientPc -> Bool
  | .lockTable _ => true
  | .apply _ => true
  | _ => false

/-- The operation of a writer from its `enqueue` until it is performed. -/
def carries : ClientPc -> WriterOp -> Prop
  | .unlockQ req, op => req = .write op
  | .wait req, op => req = .write op
  | .lockTable op', op => op' = op
  | .apply op', op => op' = op
  | _, _ => False

theorem isWriting_of_isToPerform {p : ClientPc} (h : p.isToPerform = true) :
    p.isWriting = true := by
  cases p with
  | lockTable op => rfl
  | apply op => rfl
  | _ => cases h

end ClientPc

namespace ClientEdge

variable {n : Nat} {q p : ClientPc}

theorem isToPerform_eq (h : ClientEdge n q p) :
    p.isToPerform = q.isToPerform := by
  cases h with
  | call req => cases req <;> rfl
  | _ => rfl

theorem carries (h : ClientEdge n q p) {op : WriterOp} (hop : q.carries op) :
    p.carries op := by
  cases h with
  | unlockQ req => exact hop
  | lockTable op' => exact hop
  | _ => cases hop

end ClientEdge

def Books.writers (b : Books thread file) :
    List file × List (thread × WriterOp) × List (thread × WriterOp) :=
  (b.items .writer, b.accepted, b.performed)

def performing [DecidableEq file]
    (fileOf : thread -> file) (f : file) (t : thread)
    (p : ClientPc) : Nat :=
  if fileOf t = f ∧ p.isToPerform = true then 1 else 0

/-- The writer entries of a file that have left the queue and not taken
effect. -/
def unperformed [DecidableEq file] [Fintype thread]
    (fileOf : thread -> file) (s : State thread file)
    (f : file) : Nat :=
  (s.completion f).count .writer + inHand s.worker .writer f +
    total (performing fileOf f) s.pc

/-- The accepted writers still to take effect are one out of the queue at most
and then those in the queue, in queue order. -/
structure SerialWith [DecidableEq file] [Fintype thread]
    (fileOf : thread -> file) (s : State thread file)
    (rest : List (thread × WriterOp)) (front : List file) : Prop where
  accepted : s.accepted = s.performed ++ rest
  order : rest.map (fun w => fileOf w.1) = front ++ (s.g.queue .writer).items
  carries : forall w, w ∈ rest -> (s.pc w.1).carries w.2
  nodup : (rest.map Prod.fst).Nodup
  front_le : front.length ≤ 1
  front_count : forall f, front.count f = unperformed fileOf s f

def Serial [DecidableEq file] [Fintype thread]
    (fileOf : thread -> file) (s : State thread file) : Prop :=
  exists rest front, SerialWith fileOf s rest front

section ClientSteps

variable {fileOf : thread -> file} {s u : State thread file}
variable {t : thread} {p : ClientPc}
variable {rest : List (thread × WriterOp)} {front : List file}

theorem carries_goto [DecidableEq thread] (hpcs : u.pc = s.pc)
    (hold : forall w, w ∈ rest -> (s.pc w.1).carries w.2)
    (hself : forall op, (s.pc t).carries op -> (t, op) ∈ rest -> p.carries op) :
    forall w, w ∈ rest -> ((u.goto t p).pc w.1).carries w.2 := by
  intro w hmem
  have hcarries := hold w hmem
  rcases w with ⟨t', op⟩
  show (Function.update u.pc t p t').carries op
  by_cases ht : t' = t
  · subst ht
    rw [Function.update_self]
    exact hself op hcarries hmem
  · rw [Function.update_of_ne ht, hpcs]
    exact hcarries

theorem not_carries_enq {req : Request} (hpc : s.pc t = .enq req)
    (op : WriterOp) : ¬ (s.pc t).carries op := by
  rw [hpc]
  intro hop
  exact hop

theorem items_enqueueClient (s : State thread file) (t : thread)
    (op : WriterOp) :
    ((enqueueClient fileOf s t (.write op)).g.queue .writer).items =
      ((s.g.queue .writer).enqueue (fileOf t)).items := by
  show ((s.g.setQueue .writer _).queue .writer).items = _
  rw [items_setQueue, if_pos rfl]
  rfl

theorem accepted_enqueueClient (s : State thread file) (t : thread)
    (op : WriterOp) :
    (enqueueClient fileOf s t (.write op)).accepted =
      if (s.g.queue .writer).items.length < qDefaultSize
      then s.accepted ++ [(t, op)] else s.accepted := by
  show (if ((s.g.queue .writer).ring.enqueue (some (fileOf t))).2 = 1
    then s.accepted ++ [(t, op)] else s.accepted) = _
  by_cases hroom : (s.g.queue .writer).items.length < qDefaultSize
  · rw [if_pos hroom, if_pos ((KernelQueue.enqueue_eq_one_iff _ _).mpr hroom)]
  · rw [if_neg hroom, if_neg]
    intro hone
    exact hroom ((KernelQueue.enqueue_eq_one_iff _ _).mp hone)

theorem isToPerform_afterApply (op : WriterOp) :
    (afterApply op).isToPerform = false := by
  cases op <;> rfl

variable [DecidableEq file]

theorem performing_congr {p q : ClientPc}
    (h : p.isToPerform = q.isToPerform) (f : file) (t : thread) :
    performing fileOf f t p = performing fileOf f t q := by
  unfold performing
  rw [h]

theorem performing_eq_zero {p : ClientPc} (h : p.isToPerform = false)
    (f : file) (t : thread) : performing fileOf f t p = 0 := by
  unfold performing
  rw [h]
  simp

theorem performing_eq_ite {p : ClientPc} (h : p.isToPerform = true)
    (f : file) (t : thread) :
    performing fileOf f t p = if f = fileOf t then 1 else 0 := by
  unfold performing
  rw [h]
  simp [eq_comm]

theorem front_eq_of_isToPerform [Fintype thread]
    (h : SerialWith fileOf s rest front)
    (hplace : (s.pc t).isToPerform = true) : front = [fileOf t] := by
  have hcount := h.front_count (fileOf t)
  have hle := h.front_le
  have hself := measure_le_total (performing fileOf (fileOf t)) s.pc t
  rw [performing_eq_ite hplace, if_pos rfl] at hself
  unfold unperformed at hcount
  have hmem : fileOf t ∈ front := List.count_pos_iff.mp (by lia)
  rcases front with _ | ⟨f, _ | ⟨f', tail⟩⟩
  · cases hmem
  · rw [List.mem_singleton.mp hmem]
  · simp at hle

variable [DecidableEq thread] [Fintype thread]

theorem performing_goto (fileOf : thread -> file) (s : State thread file)
    (t : thread) (p : ClientPc) (f : file) :
    total (performing fileOf f) (s.goto t p).pc +
        performing fileOf f t (s.pc t) =
      total (performing fileOf f) s.pc + performing fileOf f t p :=
  total_update (performing fileOf f) s.pc t p

/-- The rule for client steps: what the client performs, or is granted, moves
the count at its own file. -/
theorem serialWith_goto (hpcs : u.pc = s.pc)
    (haccepted : u.accepted = u.performed ++ rest)
    (horder : rest.map (fun w => fileOf w.1) =
      front ++ (u.g.queue .writer).items)
    (hcarries : forall w, w ∈ rest -> ((u.goto t p).pc w.1).carries w.2)
    (hnodup : (rest.map Prod.fst).Nodup) (hle : front.length ≤ 1)
    (hcount : forall f, front.count f + performing fileOf f t (s.pc t) =
      (u.completion f).count .writer + inHand u.worker .writer f +
        total (performing fileOf f) s.pc + performing fileOf f t p) :
    SerialWith fileOf (u.goto t p) rest front where
  accepted := haccepted
  order := horder
  carries := hcarries
  nodup := hnodup
  front_le := hle
  front_count := by
    intro f
    have hmove := performing_goto fileOf u t p f
    have hpoint := hcount f
    rw [hpcs] at hmove
    show front.count f = (u.completion f).count .writer +
      inHand u.worker .writer f + total (performing fileOf f) (u.goto t p).pc
    lia

theorem serial_quiet (h : Serial fileOf s) (hpcs : u.pc = s.pc)
    (hbooks : u.books.writers = s.books.writers)
    (hhand : forall f,
      (u.completion f).count .writer + inHand u.worker .writer f =
        (s.completion f).count .writer + inHand s.worker .writer f)
    (hcarries : forall op, (s.pc t).carries op -> p.carries op)
    (hplace : p.isToPerform = (s.pc t).isToPerform) :
    Serial fileOf (u.goto t p) := by
  simp only [State.books, Books.writers, Prod.mk.injEq] at hbooks
  rcases hbooks with ⟨hitems, haccepted, hperformed⟩
  rcases h with ⟨rest, front, h⟩
  refine ⟨rest, front, serialWith_goto hpcs ?_ ?_ ?_ h.nodup h.front_le ?_⟩
  · rw [haccepted, hperformed]
    exact h.accepted
  · rw [hitems]
    exact h.order
  · exact carries_goto hpcs h.carries (fun op hop _ => hcarries op hop)
  · intro f
    rw [h.front_count f, hhand f, performing_congr hplace]
    rfl

theorem serial_accept {op : WriterOp} (h : Serial fileOf s)
    (hpc : s.pc t = .enq (.write op))
    (hroom : (s.g.queue .writer).items.length < qDefaultSize) :
    Serial fileOf ((enqueueClient fileOf s t (.write op)).goto t
      (.unlockQ (.write op))) := by
  rcases h with ⟨rest, front, h⟩
  refine ⟨rest ++ [(t, op)], front,
    serialWith_goto (s := s) rfl ?_ ?_ ?_ ?_ h.front_le ?_⟩
  · rw [accepted_enqueueClient, if_pos hroom, h.accepted, List.append_assoc]
    rfl
  · rw [items_enqueueClient, KernelQueue.enqueue_items, if_pos hroom,
      List.map_append, h.order, List.append_assoc]
    rfl
  · intro w hmem
    rcases List.mem_append.mp hmem with hold | hnew
    · refine carries_goto (u := enqueueClient fileOf s t (.write op)) rfl
        h.carries ?_ w hold
      intro op' hop _
      exact absurd hop (not_carries_enq hpc op')
    · rw [List.mem_singleton.mp hnew]
      show (Function.update s.pc t (.unlockQ (.write op)) t).carries op
      rw [Function.update_self]
      rfl
  · rw [List.map_append, List.nodup_append_comm]
    refine List.nodup_cons.mpr ⟨?_, h.nodup⟩
    intro hmem
    rcases List.mem_map.mp hmem with ⟨w, hw, hself⟩
    have hcarries := h.carries w hw
    change w.1 = t at hself
    rw [hself] at hcarries
    exact not_carries_enq hpc w.2 hcarries
  · intro f
    rw [h.front_count f, hpc, performing_eq_zero rfl, performing_eq_zero rfl]
    rfl

theorem serial_enq {req : Request} (h : Serial fileOf s)
    (hpc : s.pc t = .enq req) :
    Serial fileOf ((enqueueClient fileOf s t req).goto t (.unlockQ req)) := by
  have hplace : (ClientPc.unlockQ req).isToPerform = (s.pc t).isToPerform := by
    rw [hpc]
    rfl
  cases req with
  | subscribe =>
      refine serial_quiet h rfl ?_ (fun _ => rfl) ?_ hplace
      · show (((s.g.setQueue .reader _).queue .writer).items, _) = _
        rw [items_setQueue, if_neg (by decide)]
        rfl
      · intro op hop
        exact absurd hop (not_carries_enq hpc op)
  | write op =>
      by_cases hroom : (s.g.queue .writer).items.length < qDefaultSize
      · exact serial_accept h hpc hroom
      · -- a refused writer waits without a place among the accepted ones
        refine serial_quiet h rfl ?_ (fun _ => rfl) ?_ hplace
        · simp only [State.books, Books.writers]
          rw [accepted_enqueueClient, if_neg hroom, items_enqueueClient,
            KernelQueue.enqueue_items, if_neg hroom]
          rfl
        · intro op' hop
          exact absurd hop (not_carries_enq hpc op')

theorem isToPerform_afterWait_writer {req : Request} (h : req.role = .writer) :
    (afterWait req).isToPerform = true := by
  cases req with
  | write op => cases op <;> rfl
  | subscribe => cases h

theorem isToPerform_afterWait_reader {req : Request} (h : req.role = .reader) :
    (afterWait req).isToPerform = false := by
  cases req with
  | write op => cases h
  | subscribe => rfl

theorem carries_afterWait {req : Request} {op : WriterOp}
    (h : (ClientPc.wait req).carries op) : (afterWait req).carries op := by
  change req = .write op at h
  rw [h]
  cases op <;> rfl

theorem serial_wait {req : Request} {done : List Role} (h : Serial fileOf s)
    (hpcs : u.pc = s.pc)
    (hsignals : u.signals = { s.signals with
      completion := Function.update s.completion (fileOf t) done })
    (hbooks : u.books.writers = s.books.writers)
    (hpc : s.pc t = .wait req)
    (hdone : s.completion (fileOf t) = req.role :: done) :
    Serial fileOf (u.goto t (afterWait req)) := by
  simp only [State.signals, Signals.mk.injEq] at hsignals
  simp only [State.books, Books.writers, Prod.mk.injEq] at hbooks
  rcases hsignals with ⟨hworker, hnext, _⟩
  rcases hbooks with ⟨hitems, haccepted, hperformed⟩
  rcases h with ⟨rest, front, h⟩
  refine ⟨rest, front, serialWith_goto hpcs ?_ ?_ ?_ h.nodup h.front_le ?_⟩
  · rw [haccepted, hperformed]
    exact h.accepted
  · rw [hitems]
    exact h.order
  · refine carries_goto hpcs h.carries ?_
    intro op hop _
    rw [hpc] at hop
    exact carries_afterWait hop
  · intro f
    rw [h.front_count f, hpc, performing_eq_zero rfl, hworker, hnext]
    unfold unperformed
    cases hrole : req.role with
    | reader =>
        rw [performing_eq_zero (isToPerform_afterWait_reader hrole)]
        rw [hrole] at hdone
        by_cases hf : f = fileOf t
        · rw [hf, Function.update_self, hdone,
            List.count_cons_of_ne (by decide)]
        · rw [Function.update_of_ne hf]
    | writer =>
        rw [performing_eq_ite (isToPerform_afterWait_writer hrole)]
        rw [hrole] at hdone
        by_cases hf : f = fileOf t
        · rw [hf, Function.update_self, hdone, List.count_cons_self, if_pos rfl]
          lia
        · rw [if_neg hf, Function.update_of_ne hf]

theorem serial_apply {op : WriterOp} (hfile : Function.Injective fileOf)
    (h : Serial fileOf s) (hpcs : u.pc = s.pc)
    (hsignals : u.signals = s.signals)
    (hbooks : u.books =
      { s.books with performed := s.performed ++ [(t, op)] })
    (hpc : s.pc t = .apply op) (hplace : p.isToPerform = false) :
    Serial fileOf (u.goto t p) := by
  simp only [State.signals, Signals.mk.injEq] at hsignals
  simp only [State.books, Books.mk.injEq] at hbooks
  rcases hsignals with ⟨hworker, hdone, _⟩
  rcases hbooks with ⟨hqueues, haccepted, hperformed⟩
  have hitems := congrFun hqueues .writer
  rcases h with ⟨rest, front, h⟩
  have hfront := front_eq_of_isToPerform (t := t) h (by rw [hpc]; rfl)
  have horder := h.order
  rw [hfront, List.singleton_append] at horder
  rcases rest with _ | ⟨first, rest⟩
  · cases horder
  rcases List.cons.inj horder with ⟨hhead, htail⟩
  have hthread : first.1 = t := hfile hhead
  have hop : first.2 = op := by
    have hcarries := h.carries first List.mem_cons_self
    rw [hthread, hpc] at hcarries
    exact hcarries.symm
  have hfirst : first = (t, op) := Prod.ext hthread hop
  have hnodup := List.nodup_cons.mp h.nodup
  refine ⟨rest, [], serialWith_goto hpcs ?_ ?_ ?_ hnodup.right (Nat.zero_le 1)
    ?_⟩
  · rw [haccepted, hperformed, h.accepted, List.append_assoc, hfirst]
    rfl
  · rw [hitems]
    exact htail
  · refine carries_goto hpcs
      (fun w hmem => h.carries w (List.mem_cons_of_mem first hmem)) ?_
    intro op' _ hmem
    refine absurd ?_ hnodup.left
    rw [hthread]
    exact List.mem_map.mpr ⟨(t, op'), hmem, rfl⟩
  · intro f
    have hcount := h.front_count f
    have hone : [fileOf t].count f = if f = fileOf t then 1 else 0 := by
      by_cases hf : f = fileOf t
      · simp [hf]
      · simp [hf, Ne.symm hf]
    unfold unperformed at hcount
    rw [hfront, hone] at hcount
    rw [hpc, performing_eq_ite rfl, performing_eq_zero hplace, hdone, hworker,
      List.count_nil]
    lia

theorem serial_idle {q : ClientPc} (h : Serial fileOf s) (hpcs : u.pc = s.pc)
    (hbooks : u.books.writers = s.books.writers)
    (hhand : forall f,
      (u.completion f).count .writer + inHand u.worker .writer f =
        (s.completion f).count .writer + inHand s.worker .writer f)
    (hpc : s.pc t = q) (hnone : forall op, ¬ q.carries op)
    (hq : q.isToPerform = false) (hp : p.isToPerform = false) :
    Serial fileOf (u.goto t p) := by
  refine serial_quiet h hpcs hbooks hhand ?_ ?_
  · intro op hop
    rw [hpc] at hop
    exact absurd hop (hnone op)
  · rw [hpc, hq, hp]

end ClientSteps

/-!
## Steps of the worker
-/

section WorkerSteps

variable [DecidableEq file] [Fintype thread]
variable {fileOf : thread -> file} {s u : State thread file}
variable {allocOk : Bool}

theorem serial_worker (h : Serial fileOf s) (hpcs : u.pc = s.pc)
    (hbooks : u.books.writers = s.books.writers)
    (hhand : forall f,
      (u.completion f).count .writer + inHand u.worker .writer f =
        (s.completion f).count .writer + inHand s.worker .writer f) :
    Serial fileOf u := by
  simp only [State.books, Books.writers, Prod.mk.injEq] at hbooks
  rcases hbooks with ⟨hitems, haccepted, hperformed⟩
  rcases h with ⟨rest, front, h⟩
  refine ⟨rest, front, ?_⟩
  constructor
  · rw [haccepted, hperformed]
    exact h.accepted
  · rw [hitems]
    exact h.order
  · rw [hpcs]
    exact h.carries
  · exact h.nodup
  · exact h.front_le
  · intro f
    have hcount := h.front_count f
    unfold unperformed at hcount ⊢
    rw [hpcs, hhand f]
    exact hcount

theorem serial_complete {f : file} {role : Role} {w : WorkerPc file}
    (h : Serial fileOf s)
    (hhand : forall f', inHand w .writer f' +
      (if f' = f ∧ role = .writer then 1 else 0) =
        inHand s.worker .writer f') :
    Serial fileOf ({ s.complete f role with worker := w } :
      State thread file) := by
  refine serial_worker h rfl rfl ?_
  intro f'
  have hpoint := hhand f'
  show ((Function.update s.completion f (s.completion f ++ [role])) f').count
    .writer + inHand w .writer f' = _
  by_cases hf : f' = f
  · rw [hf, Function.update_self, List.count_append]
    rw [hf] at hpoint
    cases role with
    | reader =>
        rw [List.count_cons_of_ne (by decide), List.count_nil]
        rw [if_neg (by simp)] at hpoint
        lia
    | writer =>
        rw [List.count_cons_self, List.count_nil]
        rw [if_pos ⟨rfl, rfl⟩] at hpoint
        lia
  · rw [Function.update_of_ne hf]
    rw [if_neg (fun hboth => hf hboth.left)] at hpoint
    lia

variable [Fintype file]

theorem unperformed_eq_zero {f : file} (hwriters : grantedWriters s = 0)
    (hhand : inHand s.worker .writer f = 0) : unperformed fileOf s f = 0 := by
  unfold grantedWriters tokens clientsAt at hwriters
  have htoken := measure_le_total
    (fun _ (done : List Role) => done.count .writer) s.completion f
  have hnobody : total (performing fileOf f) s.pc = 0 := by
    rw [total_eq_zero_iff]
    intro t
    apply performing_eq_zero
    cases hplace : (s.pc t).isToPerform with
    | false => rfl
    | true =>
        have hwriting := clientsAt_pos (ClientPc.isWriting_of_isToPerform hplace)
        unfold clientsAt at hwriting
        lia
  unfold unperformed
  lia

theorem serial_dequeWriter {f : file} {items : List file} (hbatched : Batched s)
    (h : Serial fileOf s) (hw : s.worker = .dequeWriter)
    (hitems : (s.g.queue .writer).items = f :: items) :
    Serial fileOf ({ s with
      g := s.g.setQueue .writer (s.g.queue .writer).deque
      worker := .unlockWriterQ f } : State thread file) := by
  rcases h with ⟨rest, front, h⟩
  have hphase := hbatched.phase
  rw [hw] at hphase
  have hzero : forall f', unperformed fileOf s f' = 0 := by
    intro f'
    exact unperformed_eq_zero hphase.left (by rw [hw]; rfl)
  have hfront : front = [] := by
    rw [List.eq_nil_iff_forall_not_mem]
    intro f' hmem
    have hcount := h.front_count f'
    have hpos := List.count_pos_iff.mpr hmem
    have hnone := hzero f'
    lia
  refine ⟨rest, [f], ?_⟩
  constructor
  · exact h.accepted
  · show rest.map (fun w => fileOf w.1) =
      [f] ++ ((s.g.setQueue .writer (s.g.queue .writer).deque).queue
        .writer).items
    rw [items_setQueue, if_pos rfl, KernelQueue.deque_items, h.order, hfront,
      hitems]
    rfl
  · exact h.carries
  · exact h.nodup
  · exact Nat.le_refl 1
  · intro f'
    have hnone := hzero f'
    unfold unperformed at hnone ⊢
    show [f].count f' = (s.completion f').count .writer +
      (if f = f' then 1 else 0) + total (performing fileOf f') s.pc
    rw [hw] at hnone
    by_cases hf : f = f'
    · rw [hf, List.count_cons_self, List.count_nil, if_pos rfl]
      lia
    · rw [List.count_cons_of_ne hf, List.count_nil, if_neg hf]
      lia

end WorkerSteps

section Runs

variable [DecidableEq file]
variable {fileOf : thread -> file} {s u : State thread file}
variable {a : Action thread}

theorem serial_init [Fintype thread] :
    Serial fileOf (State.init : State thread file) := by
  refine ⟨[], [], ?_⟩
  constructor
  · rfl
  · rfl
  · intro w hmem
    cases hmem
  · exact List.nodup_nil
  · exact Nat.zero_le 1
  · intro f
    have hnobody : total (performing fileOf f)
        (State.init : State thread file).pc = 0 := by
      rw [total_eq_zero_iff]
      intro t
      exact performing_eq_zero rfl f t
    unfold unperformed
    rw [hnobody]
    rfl

variable [DecidableEq thread]

/-- One writer at a time holds a grant, the table operations are performed in
the order of acceptance, and between grants the table is their result. -/
structure Serialised (fileOf : thread -> file) (s : State thread file) :
    Prop where
  one_grant : forall t t', HoldsGrant fileOf s t -> HoldsGrant fileOf s t' ->
    t = t'
  in_order : s.performed <+: s.accepted
  table : (forall t, ¬ HoldsGrant fileOf s t) -> s.g.table.cells =
    (serialTable (s.performed.map Prod.snd)).map EntryCell.live

theorem refined_of_reachable
    {allowed : State thread file -> Action thread -> Prop}
    (h : Transition.Reachable (step fileOf) allowed State.init s) :
    Refined s := by
  refine Transition.reachable_invariant Refined refined_init ?_ h
  intro s a u hrefined _ hstep
  exact refined_step hrefined (move_of_step hstep)

variable [Fintype thread] [Fintype file]

theorem serial_step (hfile : Function.Injective fileOf)
    (hticketed : Ticketed fileOf s) (hbatched : Batched s)
    (h : Serial fileOf s) (hnointerrupt : NoInterrupt s a)
    (hmove : Move fileOf s a u) : Serial fileOf u := by
  cases effect_of_move hmove with
  | quiet hsignals hbooks hpcs hedge hsection =>
      rename_i t p u
      have hworker : u.worker = s.worker := congrArg Signals.worker hsignals
      have hdone : u.completion = s.completion :=
        congrArg Signals.completion hsignals
      refine serial_quiet h hpcs (congrArg Books.writers hbooks) ?_
        (fun _ => hedge.carries) hedge.isToPerform_eq
      intro f
      rw [hworker, hdone]
  | giveUpGrant hpc => cases hnointerrupt
  | enq hpc => exact serial_enq h hpc
  | wait hpc hdone =>
      have hrole := issued_eq_role hticketed hpc hdone
      rw [hrole] at hdone
      exact serial_wait h rfl rfl rfl hpc hdone
  | apply hpc =>
      exact serial_apply hfile h rfl rfl rfl hpc (isToPerform_afterApply _)
  | handBack hpc =>
      exact serial_idle h rfl rfl (fun _ => rfl) hpc (fun _ hop => hop) rfl rfl
  | signal hpc =>
      exact serial_idle h rfl rfl (fun _ => rfl) hpc (fun _ hop => hop) rfl rfl
  | decStore hpc =>
      exact serial_idle h rfl rfl (fun _ => rfl) hpc (fun _ hop => hop) rfl rfl
  | moveOn hsignals hbooks hpcs hcs hedge =>
      rename_i w
      have hworker : u.worker = w := congrArg Signals.worker hsignals
      have hdone : u.completion = s.completion :=
        congrArg Signals.completion hsignals
      refine serial_worker h hpcs (congrArg Books.writers hbooks) ?_
      intro f
      rw [hworker, hdone, hedge.inHand_eq]
  | dequeWriter hw hitems => exact serial_dequeWriter hbatched h hw hitems
  | dequeGrant hw hitems =>
      refine serial_worker h rfl ?_ (fun _ => by rw [hw]; rfl)
      show (((s.g.setQueue .reader _).queue .writer).items, _) = _
      rw [items_setQueue, if_neg (by decide)]
      rfl
  | completeWriter hw =>
      apply serial_complete h
      intro f'
      rw [hw]
      simp [inHand, eq_comm]
  | completeGrant hw hnext =>
      apply serial_complete h
      intro f'
      rw [hw]
      rcases hnext with ⟨_, hnext⟩ | ⟨_, hnext⟩ <;> rw [hnext] <;> simp [inHand]
  | signalled hw hdone =>
      refine serial_worker h rfl rfl ?_
      intro f
      rcases hw with ⟨hw, hnext⟩ | ⟨hw, hnext⟩ <;> rw [hw, hnext] <;> rfl
  | countReaders hw => exact serial_worker h rfl rfl (fun _ => by rw [hw]; rfl)

theorem serialised_of_undisturbed (hfile : Function.Injective fileOf)
    (h : Transition.Reachable (step fileOf) Undisturbed State.init s) :
    Serialised fileOf s := by
  rcases ticketed_and_batched_of_undisturbed hfile h with ⟨_, hbatched⟩
  have hserial : Serial fileOf s := by
    refine Transition.reachable_invariant_of (Serial fileOf)
      (fun _ => ticketed_and_batched_of_undisturbed hfile) serial_init ?_ h
    intro s a u hknown hserial hallowed hstep
    exact serial_step hfile hknown.left hknown.right hserial hallowed.left
      (move_of_step hstep)
  constructor
  · intro t t' ht ht'
    exact holdsGrant_unique hfile hbatched ht ht'
  · rcases hserial with ⟨rest, front, hserial⟩
    rw [hserial.accepted]
    exact List.prefix_append _ _
  · intro _
    exact (refined_of_reachable h).cells

end Runs

theorem serialised_two_writers :
    exists s : State (Fin 4) (Fin 4),
      (s.performed = [(0, .create someEntry)] ∧
        s.accepted = [(0, .create someEntry), (2, .purge)]) ∧
          Serialised id s := by
  have hrun : exists s : State (Fin 4) (Fin 4),
      Transition.Reachable (step id) Undisturbed State.init s ∧
        (decide (s.performed = [(0, .create someEntry)] ∧
          s.accepted = [(0, .create someEntry), (2, .purge)])) = true :=
    Transition.exists_reachable_of_schedule
      (callCreate 0 ++ .call 2 (.write .purge) :: clientRuns 2 3 ++
        workerRuns 5 ++ clientRuns 0 3) _
      (by decide +kernel)
  rcases hrun with ⟨s, hreach, hplaces⟩
  exact ⟨s, of_decide_eq_true hplaces,
    serialised_of_undisturbed Function.injective_id hreach⟩

/-- Late decrements of reader `1` leave a signal too many behind.  The worker
grants writer `2` before writer `0` has returned from its wait, and the later
writer performs first. -/
theorem exists_not_serialised :
    exists s : State (Fin 4) (Fin 4),
      Transition.Reachable (step id) NoInterrupt State.init s ∧
        (HoldsGrant id s 0 ∧ HoldsGrant id s 2 ∧
          ¬ s.performed <+: s.accepted) ∧ ¬ Serialised id s := by
  have hrun : exists s : State (Fin 4) (Fin 4),
      Transition.Reachable (step id) NoInterrupt State.init s ∧
        (decide (((s.pc 0).isEngaged .writer = true ∧
          .writer ∈ s.completion 0) ∧ (s.pc 2).isWriting = true ∧
            ¬ s.performed <+: s.accepted)) = true :=
    Transition.exists_reachable_of_schedule
      (signalledBatch ++ callCreate 0 ++ workerRuns 5 ++ clientRuns 0 3 ++
        callSubscribe 2 ++ callSubscribe 3 ++ workerRuns 15 ++
        clientRuns 1 3 ++ clientRuns 2 9 ++ workerRuns 1 ++
        callCreate 0 ++ workerRuns 5 ++ clientRuns 0 3 ++
        callSubscribe 1 ++ workerRuns 3 ++ clientRuns 3 9 ++ workerRuns 3 ++
        callCreate 0 ++ workerRuns 5 ++ workerRuns 11 ++ clientRuns 1 6 ++
        workerRuns 1 ++ callCreate 2 ++ workerRuns 5 ++ clientRuns 2 2) _
      (by decide +kernel)
  rcases hrun with ⟨s, hreach, htest⟩
  rcases of_decide_eq_true htest with ⟨hgranted, hwriting, hprefix⟩
  refine ⟨s, hreach, ⟨Or.inl hgranted, Or.inr hwriting, hprefix⟩, ?_⟩
  intro hserialised
  exact hprefix hserialised.in_order

end Ioctl
end RIBDriver
