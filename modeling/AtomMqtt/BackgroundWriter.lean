import AtomMqtt.BrokerSystem

set_option autoImplicit false

/-! The background writer. The task that takes the events out of their queue and commits them in batches, step
by step between the tasks that send them. Its database is the one to which the events are applied one after the
other, in the order in which they were sent. -/
namespace AtomMqtt

abbrev SentEvent := ThreadId × PersistEvent

/-- Where `bg_writer` is: in `select!`, in the loop that collects more events, in the loop after a Shutdown, returned. -/
inductive WriterPhase where
  | waiting
  | collecting
  | draining
  | stopped
  deriving DecidableEq, Repr

structure Writer where
  phase : WriterPhase
  batch : List SentEvent
  queue : List SentEvent
  /-- All the senders are gone. -/
  closed : Bool
  db : Database

def Writer.start (db : Database) : Writer := { phase := .waiting, batch := [], queue := [], closed := false, db }

def isShutdown (event : SentEvent) : Bool := event.2 == .Shutdown

/-- `flush_all`, where every statement succeeds -/
def flushAll (db : Database) (batch : List SentEvent) : Database :=
  batch.foldl (fun db event => db.execute event.1 event.2) db

/-- `flush_all(&db, &batch); batch.clear()` -/
def Writer.flush (self : Writer) : Writer := { self with db := flushAll self.db self.batch, batch := [] }

def Writer.endOfTurn (self : Writer) : Writer :=
  if self.batch.isEmpty then { self with phase := .waiting } else { self.flush with phase := .waiting }

def Writer.stop (self : Writer) : Writer := { self.flush with phase := .stopped }

inductive WriterInput where
  | send (event : SentEvent)
  | close
  /-- 100 ms have passed since `select!` began. -/
  | timeout
  /-- The writer's next `recv` or `try_recv`, and what it does with the result. -/
  | receive
  deriving DecidableEq, Repr

def Writer.receive (self : Writer) : Option Writer :=
  match self.phase, self.queue with
  | .waiting, [] => if self.closed then some { self with phase := .draining } else none
  | .waiting, event :: queue =>
    if isShutdown event then some { self with phase := .draining, queue }
    else some { self with phase := .collecting, batch := self.batch ++ [event], queue }
  | .collecting, [] => some self.endOfTurn
  | .collecting, event :: queue =>
    if isShutdown event then some { self.stop with queue }
    else
      let collected := { self with batch := self.batch ++ [event], queue }
      if collected.batch.length ≥ 50 then some collected.flush else some collected
  | .draining, [] => some self.stop
  | .draining, event :: queue =>
    if isShutdown event then some { self.stop with queue }
    else some { self with batch := self.batch ++ [event], queue }
  | .stopped, _ => none

/-- An event that is sent after the writer has returned is lost. -/
def Writer.step (self : Writer) : WriterInput → Option Writer
  | .send event =>
    if self.closed then none
    else if self.phase = .stopped then some self
    else some { self with queue := self.queue ++ [event] }
  | .close => some { self with closed := true }
  | .timeout => if self.phase = .waiting then some self.endOfTurn else none
  | .receive => self.receive

def Writer.run (self : Writer) (inputs : List WriterInput) : Option Writer := inputs.foldlM Writer.step self

def sends : List WriterInput → List SentEvent
  | [] => []
  | .send event :: inputs => event :: sends inputs
  | _ :: inputs => sends inputs

def beforeShutdown (sent : List SentEvent) : List SentEvent := sent.takeWhile fun event => !isShutdown event

/-- What is sent after the first Shutdown and before the next. -/
def betweenShutdowns (sent : List SentEvent) : List SentEvent :=
  ((sent.dropWhile fun event => !isShutdown event).drop 1).takeWhile fun event => !isShutdown event

section
variable {flushed rest : List SentEvent} {shutdown : SentEvent}

theorem beforeShutdown_none (h : ∀ event ∈ flushed, isShutdown event = false) : beforeShutdown flushed = flushed := by
  apply List.takeWhile_eq_self_iff.mpr
  intro event hevent
  rw [h event hevent]
  rfl

theorem beforeShutdown_append (h : ∀ event ∈ flushed, isShutdown event = false) (hshutdown : isShutdown shutdown = true) :
    beforeShutdown (flushed ++ shutdown :: rest) = flushed := by
  rw [beforeShutdown, List.takeWhile_append_of_pos fun event hevent => by rw [h event hevent]; rfl,
    List.takeWhile_cons_of_neg (by simp [hshutdown]), List.append_nil]

theorem betweenShutdowns_append (h : ∀ event ∈ flushed, isShutdown event = false) (hshutdown : isShutdown shutdown = true) :
    betweenShutdowns (flushed ++ shutdown :: rest) = beforeShutdown rest := by
  rw [betweenShutdowns, List.dropWhile_append_of_pos fun event hevent => by rw [h event hevent]; rfl,
    List.dropWhile_cons_of_neg (by simp [hshutdown])]
  rfl

theorem flushAll_append (db : Database) (batch more : List SentEvent) :
    flushAll db (batch ++ more) = flushAll (flushAll db batch) more := List.foldl_append

end

/-- What the database of the writer is, once `sent` has been sent. -/
def Replayed (db : Database) (sent : List SentEvent) (w : Writer) : Prop :=
  match w.phase with
  | .waiting => w.batch = [] ∧ ∃ flushed, sent = flushed ++ w.queue ∧ (∀ event ∈ flushed, isShutdown event = false) ∧
      w.db = flushAll db flushed
  | .collecting => ∃ flushed, sent = flushed ++ (w.batch ++ w.queue) ∧
      (∀ event ∈ flushed ++ w.batch, isShutdown event = false) ∧ w.db = flushAll db flushed
  | .draining => ∃ flushed, (∀ event ∈ flushed ++ w.batch, isShutdown event = false) ∧ w.db = flushAll db flushed ∧
      (w.closed = true ∧ sent = flushed ∧ w.batch = [] ∧ w.queue = [] ∨
        ∃ shutdown, isShutdown shutdown = true ∧ sent = flushed ++ shutdown :: (w.batch ++ w.queue))
  | .stopped => ∃ flushed late, (∀ event ∈ flushed, isShutdown event = false) ∧ w.db = flushAll db (flushed ++ late) ∧
      (w.closed = true ∧ sent = flushed ∧ late = [] ∨
        ∃ shutdown rest, isShutdown shutdown = true ∧ sent = flushed ++ shutdown :: (late ++ rest) ∧
          ∀ event ∈ late, isShutdown event = false)

theorem replayed_start (db : Database) : Replayed db [] (.start db) := ⟨rfl, [], rfl, nofun, rfl⟩

section
variable {db : Database} {sent : List SentEvent} {w w' : Writer}

theorem replayed_flush (hphase : w.phase = .collecting) (h : Replayed db sent w) : Replayed db sent w.flush := by
  obtain ⟨phase, batch, queue, closed, db'⟩ := w
  cases hphase
  obtain ⟨flushed, rfl, hnone, rfl⟩ := h
  refine ⟨flushed ++ batch, (List.append_assoc _ _ _).symm, ?_, (flushAll_append db flushed batch).symm⟩
  rw [Writer.flush, List.append_nil]
  exact hnone

theorem replayed_collect {batch queue : List SentEvent} {event : SentEvent} {closed : Bool} {db' : Database}
    (hevent : isShutdown event = false)
    (h : Replayed db sent { phase := .collecting, batch, queue := event :: queue, closed, db := db' }) :
    Replayed db sent { phase := .collecting, batch := batch ++ [event], queue, closed, db := db' } := by
  obtain ⟨flushed, rfl, hnone, rfl⟩ := h
  refine ⟨flushed, by rw [List.append_assoc, List.singleton_append], ?_, rfl⟩
  rw [← List.append_assoc, List.forall_mem_append]
  exact ⟨hnone, List.forall_mem_singleton.mpr hevent⟩

theorem replayed_endOfTurn (hphase : w.phase = .waiting ∨ w.phase = .collecting) (h : Replayed db sent w) :
    Replayed db sent w.endOfTurn := by
  obtain ⟨phase, batch, queue, closed, db'⟩ := w
  cases hphase with
  | inl hwaiting =>
    cases hwaiting
    obtain ⟨rfl, hflushed⟩ := h
    exact ⟨rfl, hflushed⟩
  | inr hcollecting =>
    cases hcollecting
    rw [Writer.endOfTurn]
    cases batch with
    | nil =>
      obtain ⟨flushed, hsent, hnone, hdb⟩ := h
      exact ⟨rfl, flushed, hsent, fun event hevent => hnone event (List.mem_append_left _ hevent), hdb⟩
    | cons event batch =>
      obtain ⟨flushed, hsent, hnone, hdb⟩ := replayed_flush rfl h
      exact ⟨rfl, flushed, hsent, fun event hevent => hnone event (List.mem_append_left _ hevent), hdb⟩

theorem replayed_send (h : Replayed db sent w) (event : SentEvent) (hopen : w.closed = false) :
    Replayed db (sent ++ [event]) (if w.phase = .stopped then w else { w with queue := w.queue ++ [event] }) := by
  obtain ⟨phase, batch, queue, closed, db'⟩ := w
  cases hopen
  cases phase with
  | waiting =>
    obtain ⟨rfl, flushed, rfl, hnone, rfl⟩ := h
    exact ⟨rfl, flushed, List.append_assoc _ _ _, hnone, rfl⟩
  | collecting =>
    obtain ⟨flushed, rfl, hnone, rfl⟩ := h
    refine ⟨flushed, ?_, hnone, rfl⟩
    rw [List.append_assoc, List.append_assoc]
    rfl
  | draining =>
    obtain ⟨flushed, hnone, rfl, ⟨hclosed, -⟩ | ⟨shutdown, hshutdown, rfl⟩⟩ := h
    · cases hclosed
    · refine ⟨flushed, hnone, rfl, .inr ⟨shutdown, hshutdown, ?_⟩⟩
      rw [List.append_assoc, List.cons_append, List.append_assoc]
      rfl
  | stopped =>
    obtain ⟨flushed, late, hnone, hdb, ⟨hclosed, -⟩ | ⟨shutdown, rest, hshutdown, rfl, hlate⟩⟩ := h
    · cases hclosed
    · refine ⟨flushed, late, hnone, hdb, .inr ⟨shutdown, rest ++ [event], hshutdown, ?_, hlate⟩⟩
      rw [List.append_assoc, List.cons_append, List.append_assoc]

theorem replayed_close (h : Replayed db sent w) : Replayed db sent { w with closed := true } := by
  obtain ⟨phase, batch, queue, closed, db'⟩ := w
  cases phase with
  | waiting => exact h
  | collecting => exact h
  | draining =>
    obtain ⟨flushed, hnone, hdb, hclosed | hshutdown⟩ := h
    · exact ⟨flushed, hnone, hdb, .inl ⟨rfl, hclosed.2⟩⟩
    · exact ⟨flushed, hnone, hdb, .inr hshutdown⟩
  | stopped =>
    obtain ⟨flushed, late, hnone, hdb, hclosed | hshutdown⟩ := h
    · exact ⟨flushed, late, hnone, hdb, .inl ⟨rfl, hclosed.2⟩⟩
    · exact ⟨flushed, late, hnone, hdb, .inr hshutdown⟩

theorem replayed_waiting (hphase : w.phase = .waiting) (h : Replayed db sent w) (hstep : w.receive = some w') :
    Replayed db sent w' := by
  obtain ⟨phase, batch, queue, closed, db'⟩ := w
  cases hphase
  obtain ⟨rfl, flushed, rfl, hnone, rfl⟩ := h
  cases queue with
  | nil =>
    simp only [Writer.receive] at hstep
    split_ifs at hstep with hclosed
    cases hstep
    exact ⟨flushed, by simpa using hnone, rfl, .inl ⟨hclosed, List.append_nil _, rfl, rfl⟩⟩
  | cons event queue =>
    simp only [Writer.receive] at hstep
    split_ifs at hstep with hshutdown
    · cases hstep
      exact ⟨flushed, by simpa using hnone, rfl, .inr ⟨event, hshutdown, rfl⟩⟩
    · cases hstep
      refine ⟨flushed, rfl, ?_, rfl⟩
      rw [List.forall_mem_append]
      exact ⟨hnone, List.forall_mem_singleton.mpr (Bool.eq_false_iff.mpr hshutdown)⟩

theorem replayed_collecting (hphase : w.phase = .collecting) (h : Replayed db sent w) (hstep : w.receive = some w') :
    Replayed db sent w' := by
  obtain ⟨phase, batch, queue, closed, db'⟩ := w
  cases hphase
  cases queue with
  | nil =>
    cases hstep
    exact replayed_endOfTurn (.inr rfl) h
  | cons event queue =>
    simp only [Writer.receive] at hstep
    split_ifs at hstep with hshutdown hfull
    · cases hstep
      obtain ⟨flushed, rfl, hnone, rfl⟩ := h
      refine ⟨flushed ++ batch, [], hnone, ?_, .inr ⟨event, queue, hshutdown, ?_, nofun⟩⟩
      · rw [List.append_nil]
        exact (flushAll_append db flushed batch).symm
      · rw [List.append_assoc]
        rfl
    · cases hstep
      exact replayed_flush rfl (replayed_collect (Bool.eq_false_iff.mpr hshutdown) h)
    · cases hstep
      exact replayed_collect (Bool.eq_false_iff.mpr hshutdown) h

theorem replayed_draining (hphase : w.phase = .draining) (h : Replayed db sent w) (hstep : w.receive = some w') :
    Replayed db sent w' := by
  obtain ⟨phase, batch, queue, closed, db'⟩ := w
  cases hphase
  obtain ⟨flushed, hnone, rfl, hsent⟩ := h
  rw [List.forall_mem_append] at hnone
  cases queue with
  | nil =>
    cases hstep
    refine ⟨flushed, batch, hnone.1, (flushAll_append db flushed batch).symm, ?_⟩
    cases hsent with
    | inl hclosed => exact .inl ⟨hclosed.1, hclosed.2.1, hclosed.2.2.1⟩
    | inr hshutdown =>
      obtain ⟨shutdown, hshutdown, rfl⟩ := hshutdown
      exact .inr ⟨shutdown, [], hshutdown, rfl, hnone.2⟩
  | cons event queue =>
    obtain ⟨shutdown, hfirst, rfl⟩ : ∃ shutdown, isShutdown shutdown = true ∧
        sent = flushed ++ shutdown :: (batch ++ event :: queue) := by
      cases hsent with
      | inl hclosed => cases hclosed.2.2.2
      | inr hshutdown => exact hshutdown
    simp only [Writer.receive] at hstep
    split_ifs at hstep with hshutdown
    · cases hstep
      exact ⟨flushed, batch, hnone.1, (flushAll_append db flushed batch).symm,
        .inr ⟨shutdown, event :: queue, hfirst, rfl, hnone.2⟩⟩
    · cases hstep
      refine ⟨flushed, ?_, rfl, .inr ⟨shutdown, hfirst, ?_⟩⟩
      · simp only [List.forall_mem_append, List.forall_mem_singleton]
        exact ⟨hnone.1, hnone.2, Bool.eq_false_iff.mpr hshutdown⟩
      · rw [List.append_assoc, List.singleton_append]

theorem replayed_receive (h : Replayed db sent w) (hstep : w.receive = some w') : Replayed db sent w' := by
  cases hphase : w.phase with
  | waiting => exact replayed_waiting hphase h hstep
  | collecting => exact replayed_collecting hphase h hstep
  | draining => exact replayed_draining hphase h hstep
  | stopped => simp [Writer.receive, hphase] at hstep

theorem replayed_step {input : WriterInput} (h : Replayed db sent w) (hstep : w.step input = some w') :
    Replayed db (sent ++ sends [input]) w' := by
  cases input with
  | send event =>
    simp only [Writer.step] at hstep
    split_ifs at hstep with hclosed hstopped
    · cases hstep
      have hsend := replayed_send h event (Bool.eq_false_iff.mpr hclosed)
      rwa [if_pos hstopped] at hsend
    · cases hstep
      have hsend := replayed_send h event (Bool.eq_false_iff.mpr hclosed)
      rwa [if_neg hstopped] at hsend
  | close =>
    cases hstep
    change Replayed db (sent ++ []) _
    rw [List.append_nil]
    exact replayed_close h
  | timeout =>
    simp only [Writer.step] at hstep
    split_ifs at hstep with hwaiting
    cases hstep
    change Replayed db (sent ++ []) _
    rw [List.append_nil]
    exact replayed_endOfTurn (.inl hwaiting) h
  | receive =>
    change Replayed db (sent ++ []) _
    rw [List.append_nil]
    exact replayed_receive h hstep

theorem sends_cons (input : WriterInput) (inputs : List WriterInput) :
    sends (input :: inputs) = sends [input] ++ sends inputs := by
  cases input <;> rfl

/-- Every schedule keeps the invariant. Induction on the inputs. -/
theorem replayed_run (inputs : List WriterInput) : ∀ {sent : List SentEvent} {w w' : Writer}, Replayed db sent w →
    w.run inputs = some w' → Replayed db (sent ++ sends inputs) w' := by
  induction inputs with
  | nil =>
    intro sent w w' h hrun
    cases hrun
    rw [sends, List.append_nil]
    exact h
  | cons input inputs ih =>
    intro sent w w' h hrun
    obtain ⟨next, hstep, hrest⟩ := Option.bind_eq_some_iff.mp hrun
    have hnext := ih (replayed_step h hstep) hrest
    rwa [List.append_assoc, ← sends_cons] at hnext

end

/-- The events that the writer has not committed are those of the node. -/
structure Backs (node : Node) (w : Writer) : Prop where
  events : node.shared.events = w.batch ++ w.queue
  database : node.database = w.db

section
variable {node : Node} {w w' : Writer}

theorem Backs.commit_nothing (h : Backs node w) : Backs (node.commit 0) w := ⟨h.events, h.database⟩

theorem Backs.flush (h : Backs node w) : Backs (node.commit w.batch.length) w.flush := by
  constructor
  · change node.shared.events.drop w.batch.length = [] ++ w.queue
    rw [h.events, List.drop_left]
    rfl
  · change (node.shared.events.take w.batch.length).foldl _ node.database = flushAll w.db w.batch
    rw [h.events, List.take_left, h.database]
    rfl

theorem Backs.endOfTurn (h : Backs node w) : ∃ n, Backs (node.commit n) w.endOfTurn := by
  rw [Writer.endOfTurn]
  split_ifs
  · exact ⟨0, h.events, h.database⟩
  · exact ⟨_, h.flush.events, h.flush.database⟩

theorem Backs.step (h : Backs node w) {input : WriterInput} (hinput : input = .timeout ∨ input = .receive)
    (hstep : w.step input = some w') (hgoes : w'.phase = .waiting ∨ w'.phase = .collecting) :
    ∃ n, Backs (node.commit n) w' := by
  rcases hinput with rfl | rfl
  · simp only [Writer.step] at hstep
    split_ifs at hstep
    cases hstep
    exact h.endOfTurn
  · obtain ⟨phase, batch, queue, closed, db⟩ := w
    have hstay : ∀ phase' : WriterPhase, ∀ event queue', queue = event :: queue' →
        Backs node { phase := phase', batch := batch ++ [event], queue := queue', closed, db } := by
      rintro phase' event queue' rfl
      exact ⟨h.events.trans (by simp), h.database⟩
    cases phase <;> cases queue <;> simp only [Writer.step, Writer.receive] at hstep
    · split_ifs at hstep
      cases hstep
      exact absurd hgoes (by simp)
    · split_ifs at hstep
      · cases hstep
        exact absurd hgoes (by simp)
      · cases hstep
        exact ⟨0, (hstay _ _ _ rfl).commit_nothing⟩
    · cases hstep
      exact h.endOfTurn
    · split_ifs at hstep
      · cases hstep
        exact absurd hgoes (by simp [Writer.stop])
      · cases hstep
        exact ⟨_, (hstay .collecting _ _ rfl).flush⟩
      · cases hstep
        exact ⟨0, (hstay _ _ _ rfl).commit_nothing⟩
    · cases hstep
      exact absurd hgoes (by simp [Writer.stop])
    · split_ifs at hstep
      · cases hstep
        exact absurd hgoes (by simp [Writer.stop])
      · cases hstep
        exact absurd hgoes (by simp)
    · cases hstep
    · cases hstep

end

/-- When the writer has stopped, or has nothing in its batch and its queue, its database is the one that the events sent
    before the first Shutdown make, one after the other, and after them some of those sent before the next. -/
theorem writer_replays {db : Database} {inputs : List WriterInput} {w : Writer}
    (hrun : (Writer.start db).run inputs = some w) (hidle : w.phase = .stopped ∨ w.batch = [] ∧ w.queue = []) :
    ∃ late, late <+: betweenShutdowns (sends inputs) ∧
      w.db = (beforeShutdown (sends inputs) ++ late).foldl (fun db event => db.execute event.1 event.2) db := by
  have h : Replayed db (sends inputs) w := replayed_run inputs (replayed_start db) hrun
  obtain ⟨phase, batch, queue, closed, db'⟩ := w
  cases phase with
  | waiting =>
    obtain ⟨rfl, flushed, hsent, hnone, rfl⟩ := h
    obtain rfl : queue = [] := by simpa using hidle
    rw [List.append_nil] at hsent
    rw [hsent, beforeShutdown_none hnone]
    exact ⟨[], List.nil_prefix, congrArg (flushAll db) (List.append_nil flushed).symm⟩
  | collecting =>
    obtain ⟨flushed, hsent, hnone, rfl⟩ := h
    obtain ⟨rfl, rfl⟩ : batch = [] ∧ queue = [] := by simpa using hidle
    rw [List.append_nil] at hnone
    rw [List.append_nil, List.append_nil] at hsent
    rw [hsent, beforeShutdown_none hnone]
    exact ⟨[], List.nil_prefix, congrArg (flushAll db) (List.append_nil flushed).symm⟩
  | draining =>
    obtain ⟨flushed, hnone, rfl, hsent⟩ := h
    obtain ⟨rfl, rfl⟩ : batch = [] ∧ queue = [] := by simpa using hidle
    rw [List.append_nil] at hnone
    have hbefore : beforeShutdown (sends inputs) = flushed := by
      rcases hsent with ⟨-, hsent, -⟩ | ⟨shutdown, hshutdown, hsent⟩
      · rw [hsent, beforeShutdown_none hnone]
      · rw [hsent, beforeShutdown_append hnone hshutdown]
    rw [hbefore]
    exact ⟨[], List.nil_prefix, congrArg (flushAll db) (List.append_nil flushed).symm⟩
  | stopped =>
    obtain ⟨flushed, late, hnone, rfl, ⟨-, hsent, rfl⟩ | ⟨shutdown, rest, hshutdown, hsent, hlate⟩⟩ := h
    · rw [hsent, beforeShutdown_none hnone]
      exact ⟨[], List.nil_prefix, rfl⟩
    · rw [hsent, beforeShutdown_append hnone hshutdown, betweenShutdowns_append hnone hshutdown]
      refine ⟨late, ?_, rfl⟩
      rw [beforeShutdown, List.takeWhile_append_of_pos fun event hevent => by rw [hlate event hevent]; rfl]
      exact List.prefix_append _ _

def twoTurns : List WriterInput :=
  [.timeout, .send (.router 0, .SaveRetained "t" [1] 0), .receive, .receive, .send (.router 0, .SaveRetained "t" [2] 1),
    .send (.request 0, .Shutdown), .receive, .receive]

theorem writer_replays_twoTurns : ∃ w, (Writer.start .empty).run twoTurns = some w ∧ w.phase = .stopped ∧
    w.db.retainedMessages.lookup "t" = some { payload := [2], qos := 1 } ∧ ∃ late, late <+: betweenShutdowns (sends twoTurns) ∧
      w.db = (beforeShutdown (sends twoTurns) ++ late).foldl (fun db event => db.execute event.1 event.2) .empty := by
  have hrun : ((Writer.start .empty).run twoTurns).map (fun w => (w.phase, w.db.retainedMessages.lookup "t")) =
      some (.stopped, some { payload := [2], qos := 1 }) := by decide +kernel
  obtain ⟨w, hrun, hw⟩ := Option.map_eq_some_iff.mp hrun
  obtain ⟨hphase, hrow⟩ := Prod.mk.inj hw
  exact ⟨w, hrun, hphase, hrow, writer_replays hrun (.inl hphase)⟩

/-- An event that is sent while the writer drains its queue for a Shutdown is applied as well. -/
theorem writer_appliesLate : ¬ ∀ (db : Database) (inputs : List WriterInput) (w : Writer),
    (Writer.start db).run inputs = some w → w.phase = .stopped →
      w.db = (beforeShutdown (sends inputs)).foldl (fun db event => db.execute event.1 event.2) db := by
  intro h
  let inputs : List WriterInput := [.send (.request 0, .Shutdown), .receive,
    .send (.router 0, .SaveRetained "t" [1] 0), .receive, .receive]
  have hrun : ((Writer.start .empty).run inputs).map (fun w => (w.phase, w.db.retainedMessages.lookup "t")) =
      some (.stopped, some { payload := [1], qos := 0 }) := by decide +kernel
  obtain ⟨w, hrun, hw⟩ := Option.map_eq_some_iff.mp hrun
  obtain ⟨hphase, hrow⟩ := Prod.mk.inj hw
  have hdb : w.db = .empty := h .empty inputs w hrun hphase
  rw [hdb] at hrow
  cases hrow

end AtomMqtt
