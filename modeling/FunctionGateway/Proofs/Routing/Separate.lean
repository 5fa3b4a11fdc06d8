import FunctionGateway.Proofs.Routing.Search

/-!
# Routes that keep clear of each other

Two routes are separate if their texts alone show that no path matches both, before any
question of which of them comes first can arise.  Separate routes do not clash in a tree, and
neither takes a path away that the other one matches.
-/

namespace FunctionGateway.Routing

open FunctionGateway.Text

namespace Route

/-- The two differ in a literal byte, or one ends, or ends its segment, where the other one
goes on. -/
def separate : Route → Route → Bool
  | .literal byte next, .literal other later => byte != other || next.separate later
  | .stop, .stop => false
  | .stop, _ => true
  | _, .stop => true
  | .param, .paramThen suffix _ => slash ∈ suffix
  | .paramThen suffix _, .param => slash ∈ suffix
  | .paramThen suffix next, .paramThen other later => suffix = other && next.separate later
  | _, _ => false

theorem separate_comm (first second : Route) : first.separate second = second.separate first := by
  induction first generalizing second with
  | literal byte next inductionHypothesis =>
      cases second with
      | literal other later =>
          simp only [separate, inductionHypothesis later, bne_comm]
      | _ => rfl
  | paramThen suffix next inductionHypothesis =>
      cases second with
      | paramThen other later =>
          simp only [separate, inductionHypothesis later, eq_comm]
      | _ => rfl
  | _ => cases second <;> rfl

theorem not_separate_self (route : Route) : route.separate route = false := by
  induction route with
  | literal byte next inductionHypothesis => simp [separate, inductionHypothesis]
  | paramThen suffix next inductionHypothesis => simp [separate, inductionHypothesis]
  | _ => rfl

/-- Nothing but the end of a route matches the empty path. -/
theorem fits_nil {route : Route} {values : List Bytes} (fits : Place.Fits route.places [] values) :
    route = .stop := by
  cases route with
  | stop => rfl
  | literal byte next =>
      obtain ⟨_, impossible, _⟩ := Place.fits_literal_iff.mp fits
      exact nomatch impossible
  | param => exact absurd rfl (fits_param_iff.mp fits).1
  | paramThen suffix next =>
      obtain ⟨value, _, _, nonempty, _, whole, _⟩ := fits_paramThen_iff.mp fits
      exact absurd (List.append_eq_nil_iff.mp (List.append_eq_nil_iff.mp whole.symm).1).1 nonempty
  | crowded lead spelled next =>
      obtain ⟨value, _, _, nonempty, _, whole, _⟩ := Place.fits_param_iff.mp fits
      exact absurd (List.append_eq_nil_iff.mp whole.symm).1 nonempty
  | remainder name => exact absurd rfl (Place.fits_remainder_iff.mp fits).2.1
  | stray => exact absurd rfl (Place.fits_remainder_iff.mp fits).2.1

/-- No path matches both. -/
theorem not_fits_of_separate {first second : Route} (properFirst : first.Proper)
    (properSecond : second.Proper) (apart : first.separate second = true) {path : Bytes}
    {values taken : List Bytes} (left : Place.Fits first.places path values) :
    ¬ Place.Fits second.places path taken := by
  intro right
  induction first generalizing second path values taken with
  | stop =>
      obtain ⟨rfl, _⟩ := Place.fits_nil_iff.mp left
      rw [fits_nil right] at apart
      exact nomatch apart
  | literal byte next inductionHypothesis =>
      obtain ⟨after, rfl, further⟩ := Place.fits_literal_iff.mp left
      cases second with
      | literal other later =>
          obtain ⟨_, same, furtherToo⟩ := Place.fits_literal_iff.mp right
          obtain ⟨rfl, rfl⟩ := List.cons.inj same
          simp only [separate, bne_self_eq_false, Bool.false_or] at apart
          have properLater : later.Proper := properSecond
          exact inductionHypothesis properFirst properLater apart further furtherToo
      | stop => exact nomatch (Place.fits_nil_iff.mp right).1
      | _ => exact nomatch apart
  | param =>
      obtain ⟨nonempty, plain, _⟩ := fits_param_iff.mp left
      cases second with
      | stop => exact nonempty (Place.fits_nil_iff.mp right).1
      | paramThen suffix later =>
          obtain ⟨value, after, _, _, _, rfl, _⟩ := fits_paramThen_iff.mp right
          have inside : slash ∈ suffix := of_decide_eq_true apart
          exact plain (List.mem_append_left _ (List.mem_append_right _ inside))
      | _ => exact nomatch apart
  | paramThen suffix next inductionHypothesis =>
      obtain ⟨value, after, _, nonempty, plain, rfl, _, further⟩ := fits_paramThen_iff.mp left
      cases second with
      | stop =>
          have empty := List.append_eq_nil_iff.mp (Place.fits_nil_iff.mp right).1
          exact nonempty (List.append_eq_nil_iff.mp empty.1).1
      | param =>
          have inside : slash ∈ suffix := of_decide_eq_true apart
          exact (fits_param_iff.mp right).2.1
            (List.mem_append_left _ (List.mem_append_right _ inside))
      | paramThen other later =>
          obtain ⟨sameSuffix, apartLater⟩ := Bool.and_eq_true_iff.mp apart
          obtain rfl := of_decide_eq_true sameSuffix
          obtain ⟨_, _, _, _, plainOther, same, _, furtherToo⟩ := fits_paramThen_iff.mp right
          obtain ⟨_, rfl⟩ := tail_unique properFirst.2.1 plain plainOther
            (properFirst.last further) (properSecond.last furtherToo) same
          exact inductionHypothesis properFirst.2.2.2 properSecond.2.2.2 apartLater further
            furtherToo
      | _ => exact nomatch apart
  | remainder name =>
      cases second with
      | stop =>
          exact (Place.fits_remainder_iff.mp left).2.1 (Place.fits_nil_iff.mp right).1
      | _ => exact nomatch apart
  | crowded lead spelled next =>
      cases second with
      | stop =>
          obtain ⟨rfl, _⟩ := Place.fits_nil_iff.mp right
          have ended : crowded lead spelled next = stop := fits_nil left
          exact nomatch ended
      | _ => exact nomatch apart
  | stray =>
      cases second with
      | stop =>
          exact (Place.fits_remainder_iff.mp left).2.1 (Place.fits_nil_iff.mp right).1
      | _ => exact nomatch apart

/-- A path that one of the two matches is not taken away by the other one. -/
theorem not_overtakes_of_separate {winner loser : Route} (properWinner : winner.Proper)
    (properLoser : loser.Proper) (apart : winner.separate loser = true) {path : Bytes}
    {values : List Bytes} (fits : Place.Fits loser.places path values) :
    ¬ Place.Overtakes winner.places loser.places path := by
  intro overtakes
  induction loser generalizing winner path values with
  | stop => exact Place.not_overtakes_nil overtakes
  | literal byte next inductionHypothesis =>
      obtain ⟨_, after, same, rfl, further⟩ := Place.overtakes_literal_iff.mp overtakes
      obtain ⟨_, samePath, fitsNext⟩ := Place.fits_literal_iff.mp fits
      obtain ⟨_, rfl⟩ := List.cons.inj samePath
      cases winner with
      | literal other later =>
          obtain ⟨sameByte, rfl⟩ := List.cons.inj same
          cases sameByte
          simp only [separate, bne_self_eq_false, Bool.false_or] at apart
          have properLater : later.Proper := properWinner
          exact inductionHypothesis properLater properLoser apart fitsNext further
      | stop => exact nomatch same
      | _ => exact nomatch apart
  | param =>
      cases winner with
      | stop => exact nomatch overtakes
      | paramThen suffix later =>
          obtain ⟨value, after, _, _, rfl, _⟩ := overtakes_param properWinner overtakes
          have inside : slash ∈ suffix := of_decide_eq_true apart
          exact (fits_param_iff.mp fits).2.1
            (List.mem_append_left _ (List.mem_append_right _ inside))
      | _ => exact nomatch apart
  | paramThen suffix next inductionHypothesis =>
      cases winner with
      | stop => exact nomatch overtakes
      | param => exact not_param_overtakes overtakes
      | paramThen other later =>
          obtain ⟨sameSuffix, apartLater⟩ := Bool.and_eq_true_iff.mp apart
          obtain rfl := of_decide_eq_true sameSuffix
          obtain ⟨value, after, _, _, plain, rfl, _, fitsNext⟩ := fits_paramThen_iff.mp fits
          rcases overtakes_paramThen properWinner properLoser overtakes with
            ⟨_, _, _, _, _, _, longer⟩ | ⟨_, taken, behind, _, plainTaken, same, further⟩
          · exact absurd longer (Nat.lt_irrefl _)
          · -- Where the pattern ends behind this tail nothing overtakes it.
            rcases properLoser.2.2.1 with inside | rfl
            · obtain ⟨_, rfl⟩ := tail_unique properLoser.2.1 plain plainTaken (Or.inl inside)
                (Or.inl inside) same
              exact inductionHypothesis properWinner.2.2.2 properLoser.2.2.2 apartLater fitsNext
                further
            · exact Place.not_overtakes_nil further
      | _ => exact nomatch apart
  | remainder name => exact Place.not_overtakes_remainder overtakes
  | crowded lead spelled next =>
      cases winner with
      | stop => exact nomatch overtakes
      | _ => exact nomatch apart
  | stray => exact Place.not_overtakes_remainder overtakes

/-- The two find room beside each other in a tree. -/
theorem not_clashes_of_separate {first second : Route} (apart : first.separate second = true) :
    first.clashes second = false := by
  induction first generalizing second with
  | literal byte next inductionHypothesis =>
      cases second with
      | literal other later =>
          by_cases same : byte = other
          · subst same
            simp only [separate, bne_self_eq_false, Bool.false_or] at apart
            simp [clashes, inductionHypothesis apart]
          · simp [clashes, same]
      | stop => rfl
      | _ => exact nomatch apart
  | paramThen suffix next inductionHypothesis =>
      cases second with
      | paramThen other later =>
          simp [clashes, inductionHypothesis (Bool.and_eq_true_iff.mp apart).2]
      | stop => rfl
      | param => rfl
      | _ => exact nomatch apart
  | stop => cases second <;> first | rfl | exact nomatch apart
  | param => cases second <;> first | rfl | exact nomatch apart
  | remainder name => cases second <;> first | rfl | exact nomatch apart
  | crowded lead spelled next => cases second <;> first | rfl | exact nomatch apart
  | stray => cases second <;> first | rfl | exact nomatch apart

end Route

end FunctionGateway.Routing
