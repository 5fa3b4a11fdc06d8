import FunctionGateway.Proofs.Http.Wording
import FunctionGateway.Proofs.Service.Concurrent
import FunctionGateway.Proofs.Service.Course

/-!
# Deadlines inside deadlines

Deadlines that are nested round a service cannot be told from a single one with the least of
their limits, whatever course its answer takes.  What a single one shows follows from what the
service inside would show: its answer if it is there, whatever the time, and else a refusal as
soon as the limit is over, counted from the first poll.  An answer that was given or dropped is
not polled again.
-/

namespace FunctionGateway

open FunctionGateway.Http

variable {α φ σ : Type}

/-! ## Answers behind several limits -/

/-- Whether one of some limits that run from `began` is over. -/
def overdue (limits : List Duration) (began now : Instant) : Bool :=
  limits.any fun limit => began + limit.nanos ≤ now

/-- Those limits that are limits at all. -/
def effective (limits : List Duration) : List Duration :=
  limits.filter fun limit => !limit.isZero

namespace Pending

/-- An answer with limits round it that run from the same instant, the first one outermost. -/
def behind (since : Option Instant) (limits : List Duration) (inner : Pending φ) : Pending φ :=
  limits.foldr (fun limit within => .bounded limit since within) inner

theorem abandon_behind (backend : Backend α φ σ) (since : Option Instant)
    (limits : List Duration) (inner : Pending φ) (world : World σ) :
    (inner.behind since limits).abandon backend world = inner.abandon backend world := by
  induction limits with
  | nil => rfl
  | cons limit rest inductionHypothesis => exact inductionHypothesis

/-- Of limits that run from the same instant the first one that is over counts, whichever it
is. -/
theorem poll_behind (backend : Backend α φ σ) (since : Option Instant) (limits : List Duration)
    (inner : Pending φ) (world : World σ) :
    (inner.behind since limits).poll backend world =
      match inner.poll backend world with
      | (.ready response, after) => (.ready response, after)
      | (.pending left, after) =>
          if overdue limits (since.getD world.now) world.now then
            (.ready deadlineExceeded, left.abandon backend after)
          else
            (.pending (left.behind (some (since.getD world.now)) limits), after) := by
  induction limits with
  | nil =>
      change inner.poll backend world = _
      cases inner.poll backend world with
      | mk shown after => cases shown <;> rfl
  | cons limit rest inductionHypothesis =>
      have unmoved := now_poll backend inner world
      change (Pending.bounded limit since (inner.behind since rest)).poll backend world = _
      rw [poll, inductionHypothesis]
      cases polled : inner.poll backend world with
      | mk shown after =>
          have clock : after.now = world.now := by rwa [polled] at unmoved
          cases shown with
          | ready response => rfl
          | pending left =>
              by_cases sooner : overdue rest (since.getD world.now) world.now = true
              · have whole : overdue (limit :: rest) (since.getD world.now) world.now = true := by
                  rw [overdue, List.any_cons, ← overdue, sooner, Bool.or_true]
                simp only [sooner, whole, if_true]
              · have whole : overdue (limit :: rest) (since.getD world.now) world.now =
                    decide (since.getD world.now + limit.nanos ≤ world.now) := by
                  rw [overdue, List.any_cons, ← overdue, Bool.eq_false_iff.mpr sooner,
                    Bool.or_false]
                simp only [sooner, whole, Bool.false_eq_true, if_false, decide_eq_true_eq, clock,
                  abandon_behind]
                rfl

end Pending

theorem call_deadlines (backend : Backend α φ σ) (service : Service α) (limits : List Duration)
    (request : Request) (world : World σ) :
    (limits.foldr Layer.deadline service).call backend request world =
      ((service.call backend request world).1.behind none (effective limits),
        (service.call backend request world).2) := by
  induction limits with
  | nil => rfl
  | cons limit rest inductionHypothesis =>
      rw [List.foldr_cons, Layer.deadline]
      cases zero : limit.isZero with
      | true =>
          have dropped : effective (limit :: rest) = effective rest := by
            simp [effective, zero]
          rw [if_pos rfl, inductionHypothesis, dropped]
      | false =>
          have kept : effective (limit :: rest) = limit :: effective rest := by
            simp [effective, zero]
          rw [if_neg Bool.false_ne_true, Service.call, inductionHypothesis, kept]
          rfl

/-! ## One limit for many -/

/-- The least of those limits that are not zero, if there is any. -/
def leastOf (limits : List Duration) : Option Duration :=
  ((effective limits).map Duration.nanos).min?.map Duration.mk

/-- Cut a service off at the least of some limits; without any it is left as it is. -/
def Layer.leastDeadline (limits : List Duration) : Layer (Service α) :=
  (leastOf limits).elim id Layer.deadline

/-- One of some limits is over if the least of them is. -/
theorem overdue_effective (limits : List Duration) (began now : Instant) :
    overdue (effective limits) began now = overdue (leastOf limits).toList began now := by
  rw [leastOf, Bool.eq_iff_iff]
  cases least : ((effective limits).map Duration.nanos).min? with
  | none =>
      have nothing : effective limits = [] :=
        List.map_eq_nil_iff.mp (List.min?_eq_none_iff.mp least)
      simp [overdue, nothing]
  | some nanos =>
      obtain ⟨attained, lowest⟩ := List.min?_eq_some_iff.mp least
      simp only [overdue, List.any_eq_true, decide_eq_true_eq, Option.map_some,
        Option.toList_some, List.mem_singleton, exists_eq_left]
      constructor
      · rintro ⟨limit, member, due⟩
        have least := lowest limit.nanos (List.mem_map_of_mem member)
        exact Nat.le_trans (Nat.add_le_add_left least began) due
      · intro due
        obtain ⟨limit, member, rfl⟩ := List.mem_map.mp attained
        exact ⟨limit, member, due⟩

theorem isZero_leastOf {limits : List Duration} {least : Duration}
    (found : leastOf limits = some least) : least.isZero = false := by
  obtain ⟨nanos, attained, rfl⟩ := Option.map_eq_some_iff.mp found
  obtain ⟨limit, member, rfl⟩ := List.mem_map.mp (List.min?_eq_some_iff.mp attained).1
  simpa [Duration.isZero] using (List.mem_filter.mp member).2

theorem call_leastDeadline (backend : Backend α φ σ) (service : Service α)
    (limits : List Duration) (request : Request) (world : World σ) :
    (Layer.leastDeadline limits service).call backend request world =
      ((service.call backend request world).1.behind none (leastOf limits).toList,
        (service.call backend request world).2) := by
  rw [Layer.leastDeadline]
  cases found : leastOf limits with
  | none => rfl
  | some least =>
      have positive := isZero_leastOf found
      rw [Option.elim_some, Layer.deadline, positive, if_neg Bool.false_ne_true]
      rfl

namespace Course

/-- Two courses that differ by limits round what is pending, and by nothing else. -/
structure Alike (limits others : List Duration) (first second : Course φ σ) : Prop where
  world : first.world = second.world
  sights : first.sights = second.sights
  pending : ∃ core : Option (Option Instant × Pending φ),
    first.pending? = core.map (fun (since, inner) => inner.behind since limits) ∧
      second.pending? = core.map fun (since, inner) => inner.behind since others

section Alike

variable (backend : Backend α φ σ) {limits others : List Duration} {first second : Course φ σ}

theorem Alike.note (alike : Alike limits others first second)
    (same : ∀ began now, overdue limits began now = overdue others began now)
    (since : Option Instant) (inner : Pending φ) :
    Alike limits others (first.note ((inner.behind since limits).poll backend first.world))
      (second.note ((inner.behind since others).poll backend second.world)) := by
  obtain ⟨world, sights, _⟩ := alike
  rw [Pending.poll_behind, Pending.poll_behind, ← world]
  cases inner.poll backend first.world with
  | mk shown after =>
      cases shown with
      | ready response =>
          refine ⟨rfl, ?_, none, rfl, rfl⟩
          simp only [Course.note, sights, world]
      | pending left =>
          simp only [same]
          split
          · refine ⟨rfl, ?_, none, rfl, rfl⟩
            simp only [Course.note, sights, world]
          · refine ⟨rfl, ?_, some (some (since.getD first.world.now), left), rfl, rfl⟩
            simp only [Course.note, sights, world]

theorem Alike.step (alike : Alike limits others first second)
    (same : ∀ began now, overdue limits began now = overdue others began now) (move : Move σ) :
    Alike limits others (first.step backend move) (second.step backend move) := by
  obtain ⟨world, sights, core, onFirst, onSecond⟩ := alike
  cases move with
  | reach instant =>
      exact ⟨congrArg (World.reach · instant) world, sights, core, onFirst, onSecond⟩
  | meanwhile change =>
      refine ⟨?_, sights, core, onFirst, onSecond⟩
      simp only [Course.step, world]
  | poll =>
      cases core with
      | none =>
          simp only [Course.step, onFirst, onSecond, Option.map_none]
          exact ⟨world, sights, none, onFirst, onSecond⟩
      | some own =>
          have before : Alike limits others first second :=
            ⟨world, sights, some own, onFirst, onSecond⟩
          simp only [Course.step, onFirst, onSecond, Option.map_some]
          exact before.note backend same own.1 own.2
  | drop =>
      cases core with
      | none =>
          simp only [Course.step, onFirst, onSecond, Option.map_none]
          exact ⟨world, sights, none, onFirst, onSecond⟩
      | some own =>
          simp only [Course.step, onFirst, onSecond, Option.map_some, Pending.abandon_behind]
          exact ⟨congrArg (own.2.abandon backend) world, sights, none, rfl, rfl⟩

theorem Alike.run (alike : Alike limits others first second)
    (same : ∀ began now, overdue limits began now = overdue others began now)
    (moves : List (Move σ)) :
    Alike limits others (first.run backend moves) (second.run backend moves) := by
  induction moves generalizing first second with
  | nil => exact alike
  | cons move rest inductionHypothesis => exact inductionHypothesis (alike.step backend same move)

end Alike

end Course

/-! ## What a single limit shows -/

/-- What polls behind a limit show, given what they would show without it.  The limit runs from
the first poll; an answer that is there is shown whatever the time, and the first poll without
one at which the limit is over shows the refusal. -/
def Sight.held (limit : Duration) : Option Instant → List Sight → List Sight
  | _, [] => []
  | since, sight :: later =>
      match sight.response? with
      | some _ => [sight]
      | none =>
          let began := since.getD sight.instant
          if began + limit.nanos ≤ sight.instant then
            [⟨sight.instant, some deadlineExceeded⟩]
          else
            sight :: Sight.held limit (some began) later

namespace Course

/-- The course of an answer behind a limit, beside that of the answer alone. -/
inductive Held (limit : Duration) (bare cut : Course φ σ) : Prop
  | running (since : Option Instant) (inner : Pending φ) :
      cut.world = bare.world →
      cut.pending? = some (.bounded limit since inner) →
      bare.pending? = some inner →
      (∀ later, Sight.held limit none (bare.sights ++ later) =
        cut.sights ++ Sight.held limit since later) →
      Held limit bare cut
  | answered :
      cut.pending? = none →
      (∀ later, Sight.held limit none (bare.sights ++ later) = cut.sights) →
      Held limit bare cut
  | dropped :
      cut.pending? = none →
      bare.pending? = none →
      Sight.held limit none bare.sights = cut.sights →
      Held limit bare cut

section Held

variable (backend : Backend α φ σ) {limit : Duration} {bare cut : Course φ σ}

theorem Held.note {since : Option Instant} {inner : Pending φ}
    (level : cut.world = bare.world)
    (suspended : ∀ later, Sight.held limit none (bare.sights ++ later) =
      cut.sights ++ Sight.held limit since later) :
    Held limit (bare.note (inner.poll backend bare.world))
      (cut.note ((Pending.bounded limit since inner).poll backend cut.world)) := by
  have clock := Pending.now_poll backend inner bare.world
  have shows : ∀ sight later, Sight.held limit none (bare.sights ++ [sight] ++ later) =
      cut.sights ++ Sight.held limit since (sight :: later) := by
    intro sight later
    rw [List.append_assoc]
    exact suspended (sight :: later)
  rw [level, Pending.poll]
  cases polled : inner.poll backend bare.world with
  | mk shown after =>
      rw [polled] at clock
      replace clock : after.now = bare.world.now := clock
      cases shown with
      | ready response =>
          refine Held.answered rfl fun later => ?_
          simp only [Course.note, shows, Sight.held, level]
      | pending left =>
          simp only [clock]
          by_cases due : since.getD bare.world.now + limit.nanos ≤ bare.world.now
          · rw [if_pos due]
            refine Held.answered rfl fun later => ?_
            simp only [Course.note, shows, Sight.held, due, if_true, level]
          · rw [if_neg due]
            refine Held.running (some (since.getD bare.world.now)) left rfl rfl rfl fun later => ?_
            simp only [Course.note, shows, Sight.held, due, if_false, level]
            simp only [List.append_assoc, List.singleton_append]

theorem Held.step (held : Held limit bare cut) (move : Move σ) :
    Held limit (bare.step backend move) (cut.step backend move) := by
  cases held with
  | running since inner level onCut onBare suspended =>
      cases move with
      | reach instant =>
          exact Held.running since inner (congrArg (World.reach · instant) level) onCut onBare
            suspended
      | meanwhile change =>
          refine Held.running since inner ?_ onCut onBare suspended
          simp only [Course.step, level]
      | poll =>
          simp only [Course.step, onCut, onBare]
          exact Held.note backend level suspended
      | drop =>
          simp only [Course.step, onCut, onBare]
          refine Held.dropped rfl rfl ?_
          have ended := suspended []
          rwa [List.append_nil, Sight.held, List.append_nil] at ended
  | answered closed shows =>
      -- Alone, the answer may still be polled; what that shows does not count any more.
      obtain ⟨closedStill, same⟩ := step_of_closed backend closed move
      obtain ⟨more, grown⟩ := sights_step backend bare move
      refine Held.answered closedStill fun later => ?_
      rw [same, grown, List.append_assoc]
      exact shows (more ++ later)
  | dropped closed closedToo shows =>
      obtain ⟨closedStill, same⟩ := step_of_closed backend closed move
      obtain ⟨closedStillToo, sameToo⟩ := step_of_closed backend closedToo move
      refine Held.dropped closedStill closedStillToo ?_
      rw [same, sameToo]
      exact shows

theorem Held.run (held : Held limit bare cut) (moves : List (Move σ)) :
    Held limit (bare.run backend moves) (cut.run backend moves) := by
  induction moves generalizing bare cut with
  | nil => exact held
  | cons move rest inductionHypothesis => exact inductionHypothesis (held.step backend move)

theorem Held.sights (held : Held limit bare cut) :
    cut.sights = Sight.held limit none bare.sights := by
  cases held with
  | running since inner level onCut onBare suspended =>
      have ended := suspended []
      rw [List.append_nil, Sight.held, List.append_nil] at ended
      exact ended.symm
  | answered closed shows =>
      have ended := shows []
      rw [List.append_nil] at ended
      exact ended.symm
  | dropped closed closedToo shows => exact shows.symm

end Held

end Course

/-! ## The job of a handler behind limits -/

namespace Course

/-- A job behind limits has been polled whenever its answer was.  It is no longer there once there
is an answer, and nothing but giving it up came after the polls. -/
inductive Watched (limits : List Duration) (course : Course φ (σ × List Touch)) : Prop
  | running (since : Option Instant) (job : φ) :
      course.pending? = some ((Pending.job job).behind since limits) →
      (∀ sight ∈ course.sights, sight.response? = none) →
      course.world.shared.2 = Sight.touches course.sights →
      Watched limits course
  | done (ending : List Touch) :
      course.pending? = none →
      ending = [] ∨ ending = [.abandoned] →
      course.world.shared.2 = Sight.touches course.sights ++ ending →
      Watched limits course

section Watched

variable (backend : Backend α φ σ) {limits : List Duration}
  {course : Course φ (σ × List Touch)}

theorem Watched.note {since : Option Instant} {job : φ}
    (silent : ∀ sight ∈ course.sights, sight.response? = none)
    (record : course.world.shared.2 = Sight.touches course.sights) :
    Watched limits
      (course.note (((Pending.job job).behind since limits).poll backend.watched
        course.world)) := by
  have polls : ∀ response?, Sight.touches (course.sights ++ [⟨course.world.now, response?⟩]) =
      course.world.shared.2 ++ [.polled course.world.now] := by
    intro response?
    rw [record, Sight.touches, List.map_append]
    rfl
  obtain ⟨shown, after, polled, recorded⟩ := poll_watched backend job course.world
  rw [Pending.poll_behind, polled]
  cases shown with
  | ready response =>
      refine Watched.done [] rfl (Or.inl rfl) ?_
      simp only [Course.note, Polled.map, polls, recorded, List.append_nil]
  | pending left =>
      simp only [Polled.map]
      split
      · refine Watched.done [.abandoned] rfl (Or.inr rfl) ?_
        simp only [Course.note, polls, ← recorded]
        rfl
      · refine Watched.running (some (since.getD course.world.now)) left rfl ?_ ?_
        · intro sight member
          rcases List.mem_append.mp member with before | last
          · exact silent sight before
          · rw [List.mem_singleton.mp last]
        · simp only [Course.note, polls, recorded]

theorem Watched.step (watched : Watched limits course) (move : Move σ) :
    Watched limits (course.step backend.watched move.watched) := by
  cases watched with
  | done ending closed few record =>
      obtain ⟨closedStill, same⟩ := step_of_closed backend.watched closed move.watched
      refine Watched.done ending closedStill few ?_
      rw [touches_of_closed backend closed, same]
      exact record
  | running since job pending silent record =>
      cases move with
      | reach instant => exact Watched.running since job pending silent record
      | meanwhile change => exact Watched.running since job pending silent record
      | poll =>
          simp only [Course.step, Move.watched, pending]
          exact Watched.note backend silent record
      | drop =>
          simp only [Course.step, Move.watched, pending, Pending.abandon_behind]
          refine Watched.done [.abandoned] rfl (Or.inr rfl) ?_
          exact congrArg (· ++ [Touch.abandoned]) record

theorem Watched.run (watched : Watched limits course) (moves : List (Move σ)) :
    Watched limits (course.run backend.watched (moves.map Move.watched)) := by
  induction moves generalizing course with
  | nil => exact watched
  | cons move rest inductionHypothesis => exact inductionHypothesis (watched.step backend move)

end Watched

end Course

/-- Deadlines nested round a service cannot be told, poll by poll, from one with the least limit
that is not zero.  What a single deadline shows is told by what the service shows without it, and
by the refusal, which reads the same every time; a deadline of zero changes nothing.  The job of
a handler behind deadlines is polled when its answer is, may be given up after that, and is left
alone when its answer was given or dropped. -/
theorem Service.follow_deadlines (backend : Backend α φ σ) (service : Service α)
    (limits : List Duration) (request : Request) (world : World σ) (moves : List (Move σ)) :
    (let nested := (limits.foldr Layer.deadline service).follow backend request world moves
      let single := (Layer.leastDeadline limits service).follow backend request world moves
      nested.sights = single.sights ∧ nested.world = single.world ∧
        nested.pending?.isSome = single.pending?.isSome) ∧
    (∀ limit : Duration,
      let bare := service.follow backend request world moves
      ((Layer.deadline limit service).follow backend request world moves).sights =
        if limit.isZero then bare.sights else Sight.held limit none bare.sights) ∧
    deadlineExceeded.IsTimeout ∧
    ∀ handler : α,
      let watched := (limits.foldr Layer.deadline (.handler handler)).follow backend.watched
        request ⟨world.now, world.ledger, world.shared, []⟩ (moves.map Move.watched)
      (∃ ending, (ending = [] ∨ ending = [.abandoned]) ∧
        watched.world.shared.2 = Sight.touches watched.sights ++ ending) ∧
      ((.drop ∈ moves ∨ ∃ sight ∈ watched.sights, sight.response? ≠ none) →
        ∀ later : List (Move σ),
          (watched.run backend.watched (later.map Move.watched)).world.shared.2 =
            watched.world.shared.2) := by
  refine ⟨?_, ?_, deadlineExceeded_isTimeout, ?_⟩
  · have begun : Course.Alike (effective limits) (leastOf limits).toList
        ⟨(service.call backend request world).2,
          some ((service.call backend request world).1.behind none (effective limits)), []⟩
        ⟨(service.call backend request world).2,
          some ((service.call backend request world).1.behind none (leastOf limits).toList),
          []⟩ :=
      ⟨rfl, rfl, some (none, (service.call backend request world).1), rfl, rfl⟩
    obtain ⟨same, shown, core, onNested, onSingle⟩ :=
      begun.run backend (overdue_effective limits) moves
    simp only [follow, call_deadlines, call_leastDeadline]
    refine ⟨shown, same, ?_⟩
    rw [onNested, onSingle, Option.isSome_map, Option.isSome_map]
  · intro limit
    rw [Layer.deadline]
    split
    · rfl
    · have begun : Course.Held limit
          ⟨(service.call backend request world).2,
            some (service.call backend request world).1, []⟩
          ⟨(service.call backend request world).2,
            some (.bounded limit none (service.call backend request world).1), []⟩ :=
        Course.Held.running none _ rfl rfl rfl (fun _ => rfl)
      exact (begun.run backend moves).sights
  · intro handler watched
    have ended : Course.Watched (effective limits) watched := by
      simp only [watched, follow, call_deadlines]
      have silent : ∀ sight ∈ ([] : List Sight), sight.response? = none :=
        fun _ impossible => absurd impossible List.not_mem_nil
      exact (Course.Watched.running none _ rfl silent rfl).run backend moves
    have closed : (.drop ∈ moves ∨ ∃ sight ∈ watched.sights, sight.response? ≠ none) →
        watched.pending? = none := by
      rintro (dropped | ⟨sight, member, answered⟩)
      · exact Course.closed_of_drop backend.watched (Or.inl (List.mem_map_of_mem dropped))
      · cases ended with
        | running since job pending silent record => exact absurd (silent sight member) answered
        | done ending closed few record => exact closed
    refine ⟨?_, fun gone later => Course.touches_run_of_closed backend (closed gone) later⟩
    cases ended with
    | running since job pending silent record =>
        exact ⟨[], Or.inl rfl, record.trans (List.append_nil _).symm⟩
    | done ending closed few record => exact ⟨ending, few, record⟩

/-- The handler takes seven, and the limits of the two deadlines that have one are over before
that; polled in time and then late, it is still its own answer that is given. -/
example :
    let slow : Scripted.Handler := ⟨"slow", [], .delay ⟨7⟩ (Response.text "late")⟩
    let request : Request := { method := .get, target := ⟨"/", none⟩, fields := [], body := [] }
    let nested := ([⟨6⟩, ⟨0⟩, ⟨5⟩].foldr Layer.deadline (.handler slow)).follow
      Scripted.backend request ⟨0, Metrics.Ledger.empty, {}⟩
      [.reach 2, .poll, .reach 6, .poll, .reach 9, .poll, .drop]
    nested.sights = [⟨2, none⟩, ⟨6, none⟩, ⟨9, some (Response.text "late")⟩] := by
  decide +kernel

end FunctionGateway
