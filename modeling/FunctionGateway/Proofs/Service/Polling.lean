import FunctionGateway.Service.Basic

/-!
# What a poll can come to

Polling an answer with a decoration round it polls the answer inside and goes by what that
one shows.  For each decoration the statements here say what has to have happened inside
if the whole is ready, or still pending.
-/

namespace FunctionGateway.Pending

open FunctionGateway.Http

variable {α φ σ : Type}

theorem poll_job_eq_pending {backend : Backend α φ σ} {own : φ} {left : Pending φ}
    {world after : World σ}
    (polled : (Pending.job own).poll backend world = (.pending left, after)) :
    ∃ rest shared, backend.poll own world.now world.shared = (.pending rest, shared) ∧
      left = .job rest ∧ after = { world with shared } := by
  cases inside : backend.poll own world.now world.shared with
  | mk result shared =>
      cases result with
      | ready response => simp [poll, inside, Polled.map] at polled
      | pending rest =>
          simp only [poll, inside, Polled.map, Prod.mk.injEq, Polled.pending.injEq] at polled
          exact ⟨rest, shared, rfl, polled.1.symm, polled.2.symm⟩

/-- A bounded answer is ready with the answer inside, or because its limit has passed
while that one is not ready. -/
theorem poll_bounded_eq_ready {backend : Backend α φ σ} {limit : Duration}
    {since : Option Instant} {inner : Pending φ} {world after : World σ} {response : Response}
    (polled :
      (Pending.bounded limit since inner).poll backend world = (.ready response, after)) :
    inner.poll backend world = (.ready response, after) ∨
      ∃ left next, inner.poll backend world = (.pending left, next) ∧
        since.getD world.now + limit.nanos ≤ next.now ∧
        response = deadlineExceeded ∧ after = left.abandon backend next := by
  cases inside : inner.poll backend world with
  | mk result next =>
      cases result with
      | ready early =>
          simp only [poll, inside, Prod.mk.injEq, Polled.ready.injEq] at polled
          obtain ⟨rfl, rfl⟩ := polled
          exact Or.inl rfl
      | pending left =>
          simp only [poll, inside] at polled
          split at polled
          · rename_i late
            simp only [Prod.mk.injEq, Polled.ready.injEq] at polled
            exact Or.inr ⟨left, next, rfl, late, polled.1.symm, polled.2.symm⟩
          · simp at polled

theorem poll_bounded_eq_pending {backend : Backend α φ σ} {limit : Duration}
    {since : Option Instant} {inner left : Pending φ} {world after : World σ}
    (polled : (Pending.bounded limit since inner).poll backend world = (.pending left, after)) :
    ∃ rest, inner.poll backend world = (.pending rest, after) ∧
      ¬ since.getD world.now + limit.nanos ≤ after.now ∧
      left = .bounded limit (some (since.getD world.now)) rest := by
  cases inside : inner.poll backend world with
  | mk result next =>
      cases result with
      | ready early => simp [poll, inside] at polled
      | pending rest =>
          simp only [poll, inside] at polled
          split at polled
          · simp at polled
          · rename_i early
            simp only [Prod.mk.injEq, Polled.pending.injEq] at polled
            obtain ⟨rfl, rfl⟩ := polled
            exact ⟨rest, rfl, early, rfl⟩

/-- A counted answer is ready with the answer inside, and then it is counted. -/
theorem poll_counted_eq_ready {backend : Backend α φ σ} {method template : String}
    {inner : Pending φ} {world after : World σ} {response : Response}
    (polled :
      (Pending.counted method template inner).poll backend world = (.ready response, after)) :
    ∃ next, inner.poll backend world = (.ready response, next) ∧
      after = { next with
        ledger := (next.ledger.leave template).observe
          { status := response.status, method, template } } := by
  cases inside : inner.poll backend world with
  | mk result next =>
      cases result with
      | ready early =>
          simp only [poll, inside, Prod.mk.injEq, Polled.ready.injEq] at polled
          obtain ⟨rfl, rfl⟩ := polled
          exact ⟨next, rfl, rfl⟩
      | pending rest => simp [poll, inside] at polled

theorem poll_counted_eq_pending {backend : Backend α φ σ} {method template : String}
    {inner left : Pending φ} {world after : World σ}
    (polled :
      (Pending.counted method template inner).poll backend world = (.pending left, after)) :
    ∃ rest, inner.poll backend world = (.pending rest, after) ∧
      left = .counted method template rest := by
  cases inside : inner.poll backend world with
  | mk result next =>
      cases result with
      | ready early => simp [poll, inside] at polled
      | pending rest =>
          simp only [poll, inside, Prod.mk.injEq, Polled.pending.injEq] at polled
          obtain ⟨rfl, rfl⟩ := polled
          exact ⟨rest, rfl, rfl⟩

theorem poll_altered_eq_ready {backend : Backend α φ σ} {change : Response → Response}
    {inner : Pending φ} {world after : World σ} {response : Response}
    (polled : (Pending.altered change inner).poll backend world = (.ready response, after)) :
    ∃ early, inner.poll backend world = (.ready early, after) ∧ response = change early := by
  cases inside : inner.poll backend world with
  | mk result next =>
      cases result with
      | ready early =>
          simp only [poll, inside, Prod.mk.injEq, Polled.ready.injEq] at polled
          obtain ⟨rfl, rfl⟩ := polled
          exact ⟨early, rfl, rfl⟩
      | pending rest => simp [poll, inside] at polled

theorem poll_altered_eq_pending {backend : Backend α φ σ} {change : Response → Response}
    {inner left : Pending φ} {world after : World σ}
    (polled : (Pending.altered change inner).poll backend world = (.pending left, after)) :
    ∃ rest, inner.poll backend world = (.pending rest, after) ∧
      left = .altered change rest := by
  cases inside : inner.poll backend world with
  | mk result next =>
      cases result with
      | ready early => simp [poll, inside] at polled
      | pending rest =>
          simp only [poll, inside, Prod.mk.injEq, Polled.pending.injEq] at polled
          obtain ⟨rfl, rfl⟩ := polled
          exact ⟨rest, rfl, rfl⟩

end FunctionGateway.Pending
