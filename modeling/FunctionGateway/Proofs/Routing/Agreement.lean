import FunctionGateway.Proofs.Routing.Allowed
import FunctionGateway.Proofs.Routing.Reference

/-!
# Trees agree with the reference

Whatever was bound in a router, in whatever order and with whatever failures, it answers a path
as its bindings do on their own.
-/

namespace FunctionGateway.Routing

open FunctionGateway.Http
open FunctionGateway.Text

variable {α : Type}

section Lookup

variable {router : Router α} {log : List (Attempt α)} {path : String}

theorem Tracks.silent_iff (tracks : Tracks router.tree log) (undisturbed : Undisturbed log path)
    (scope : Scope) :
    Silent Place.Overtakes (Bound log) scope path ↔
      Router.matched (router.tree scope) path = none := by
  have heard := @Tracks.matched_isSome_iff _ _ _ scope _ tracks undisturbed
  rw [← Option.not_isSome_iff_eq_none, heard, Classical.not_not]

theorem Tracks.mem_otherMethods_iff (tracks : Tracks router.tree log) (keyed : router.Keyed)
    (undisturbed : Undisturbed log path) (method other : Method) :
    other ∈ router.otherMethods method path ↔
      other ≠ method ∧ ¬ Silent Place.Overtakes (Bound log) (.only other) path := by
  rw [Router.mem_otherMethods_iff keyed]
  exact and_congr_right fun _ =>
    @Tracks.matched_isSome_iff _ _ _ (.only other) _ tracks undisturbed

/-- A lookup answers as the reference does. -/
theorem Tracks.reference_of_lookup (tracks : Tracks router.tree log) (keyed : router.Keyed)
    (undisturbed : Undisturbed log path) (method : Method) :
    Reference Place.Overtakes (Bound log) method path (router.lookup method path) := by
  have silent := fun scope => tracks.silent_iff undisturbed scope
  rw [Router.lookup]
  cases own : Router.matched (router.methodTree method) path with
  | some found =>
      exact Reference.own found.1 found.2 ((tracks.matched_iff undisturbed _ _).mp own)
  | none =>
      have silentOwn := (silent (.only method)).mpr own
      simp only
      cases any : Router.matched router.any path with
      | some found =>
          exact Reference.any found.1 found.2 silentOwn
            ((tracks.matched_iff undisturbed _ _).mp any)
      | none =>
          have silentAny := (silent .any).mpr any
          have members := tracks.mem_otherMethods_iff keyed undisturbed method
          have sorted := Router.pairwise_otherMethods keyed method path
          simp only
          cases others : router.otherMethods method path with
          | nil =>
              refine Reference.nowhere (fun other => ?_) silentAny
              by_cases same : other = method
              · exact same ▸ silentOwn
              · refine Classical.byContradiction fun heard => ?_
                have member := (members other).mpr ⟨same, heard⟩
                rw [others] at member
                exact absurd member List.not_mem_nil
          | cons first rest =>
              rw [others] at members sorted
              exact Reference.others _ silentOwn silentAny (List.cons_ne_nil _ _) sorted members

/-- The reference has one answer. -/
theorem Tracks.reference_unique (tracks : Tracks router.tree log)
    (undisturbed : Undisturbed log path) {method : Method} {first second : Router.Lookup α}
    (left : Reference Place.Overtakes (Bound log) method path first)
    (right : Reference Place.Overtakes (Bound log) method path second) : first = second := by
  have one : ∀ {scope handler other params taken},
      Answered Place.Overtakes (Bound log) scope path handler params →
        Answered Place.Overtakes (Bound log) scope path other taken →
          Router.Lookup.found handler params = .found other taken := by
    intro scope handler other params taken answered answeredToo
    have found := (tracks.matched_iff undisturbed handler params).mpr answered
    rw [(tracks.matched_iff undisturbed other taken).mpr answeredToo] at found
    cases found
    rfl
  cases left with
  | own handler params answered =>
      cases right with
      | own _ _ answeredToo => exact one answered answeredToo
      | any _ _ silent => exact absurd answered (silent _ _)
      | others _ silent => exact absurd answered (silent _ _)
      | nowhere silent => exact absurd answered (silent _ _ _)
  | any handler params silentOwn answered =>
      cases right with
      | own _ _ answeredToo => exact absurd answeredToo (silentOwn _ _)
      | any _ _ _ answeredToo => exact one answered answeredToo
      | others _ _ silent => exact absurd answered (silent _ _)
      | nowhere _ silent => exact absurd answered (silent _ _)
  | others allowed silentOwn silentAny nonempty sorted members =>
      cases right with
      | own _ _ answered => exact absurd answered (silentOwn _ _)
      | any _ _ _ answered => exact absurd answered (silentAny _ _)
      | others _ _ _ _ sortedToo membersToo =>
          rw [allowed_unique sorted sortedToo fun other =>
            (members other).trans (membersToo other).symm]
      | nowhere silent =>
          obtain ⟨other, member⟩ := List.exists_mem_of_ne_nil allowed nonempty
          exact absurd (silent other) ((members other).mp member).2
  | nowhere silent silentAny =>
      cases right with
      | own _ _ answered => exact absurd answered (silent _ _ _)
      | any _ _ _ answered => exact absurd answered (silentAny _ _)
      | others allowed _ _ nonempty _ members =>
          obtain ⟨other, member⟩ := List.exists_mem_of_ne_nil allowed nonempty
          exact absurd (silent other) ((members other).mp member).2
      | nowhere => rfl

end Lookup

/-- Bind specifications one after the other, each of which may fail.  On a path that no refused
pattern takes away, a lookup answers as the set of the bindings does that were taken. -/
theorem Router.lookup_eq_iff_reference (calls : List (RouteSpec × α))
    (rooted : ∀ call ∈ calls, Rooted call.1.template)
    (uncut : Uncut (Router.empty.record calls)) (method : Method) (path : String)
    (undisturbed : Undisturbed (Router.empty.record calls) path) (answer : Router.Lookup α) :
    (Router.empty.routeAll calls).lookup method path = answer ↔
      Reference Place.Overtakes (Bound (Router.empty.record calls)) method path answer := by
  have tracks := Tracks.start.routeAll rooted uncut
  have reference :=
    tracks.reference_of_lookup Router.Keyed.start.routeAll undisturbed method
  constructor
  · rintro rfl
    exact reference
  · exact fun other => tracks.reference_unique undisturbed reference other

/-! ## A path that is taken away for good -/

deriving instance DecidableEq for Router.Lookup

/-- On `/za/b` the second pattern overtakes the first one and leads nowhere. -/
def straying : List (RouteSpec × String) :=
  [(.exactly "/\x7bx\x7d/b" (.one .get), "first"),
    (.exactly "/\x7bx\x7da/c" (.one .get), "second")]

theorem record_straying :
    Router.empty.record straying =
      [⟨⟨.only .get, "/\x7bx\x7d/b", ⟨"first", []⟩⟩, true⟩,
        ⟨⟨.only .get, "/\x7bx\x7da/c", ⟨"second", []⟩⟩, true⟩] := by
  decide +kernel

theorem bound_straying {binding : Binding String}
    (bound : Bound (Router.empty.record straying) binding) :
    binding = ⟨.only .get, "/\x7bx\x7d/b", ⟨"first", []⟩⟩ ∨
      binding = ⟨.only .get, "/\x7bx\x7da/c", ⟨"second", []⟩⟩ := by
  obtain ⟨attempt, member, _, rfl⟩ := bound
  rw [record_straying] at member
  simp only [List.mem_cons, List.not_mem_nil, or_false] at member
  rcases member with rfl | rfl
  · exact Or.inl rfl
  · exact Or.inr rfl

theorem spelled_straying :
    Piece.Spelled "/\x7bx\x7d/b" [.literal 0x2f, .param [0x78], .literal 0x2f, .literal 0x62] :=
  Piece.spelled_of_read rfl rfl

theorem fits_straying :
    Place.Fits [.literal 0x2f, .param, .literal 0x2f, .literal 0x62]
      [0x2f, 0x7a, 0x61, 0x2f, 0x62] [[0x7a, 0x61]] :=
  .literal _ (.param [0x7a, 0x61] (by decide) (by decide) (.literal _ (.literal _ .done)))

/-- If nothing were taken for good, the first pattern would answer this path. -/
theorem Router.lookup_straying :
    (Router.empty.routeAll straying).lookup .get "/za/b" = .notFound ∧
      Reference (fun _ _ _ => False) (Bound (Router.empty.record straying)) .get "/za/b"
        (.found "first" [("x", "za")]) := by
  refine ⟨by decide +kernel, Reference.own _ _ ?_⟩
  have spelledOther : Piece.Spelled "/\x7bx\x7da/c"
      [.literal 0x2f, .param [0x78], .literal 0x61, .literal 0x2f, .literal 0x63] :=
    Piece.spelled_of_read rfl rfl
  refine ⟨⟨.only .get, "/\x7bx\x7d/b", ⟨"first", []⟩⟩, _, [[0x7a, 0x61]],
    ⟨⟨?_, rfl, spelled_straying, fits_straying, fun _ _ _ _ _ => id⟩, ?_⟩, by decide, rfl, rfl⟩
  · refine ⟨⟨_, true⟩, ?_, rfl, rfl⟩
    rw [record_straying]
    exact List.mem_cons_self
  · intro other others taken stays
    rcases bound_straying stays.bound with rfl | rfl
    · exact Or.inl rfl
    · have path : encodeUtf8 "/za/b" = [0x2f, 0x7a, 0x61, 0x2f, 0x62] := by decide
      have whole := stays.fits
      rw [path] at whole
      cases stays.spelled.unique spelledOther
      obtain ⟨_, same, further⟩ := Place.fits_literal_iff.mp whole
      obtain ⟨value, _, _, _, _, rfl, rfl, behind⟩ := Place.fits_param_iff.mp further
      obtain ⟨_, rfl, ended⟩ := (Place.fits_text_iff [0x61, 0x2f, 0x63]).mp behind
      obtain ⟨rfl, _⟩ := Place.fits_nil_iff.mp ended
      have last := congrArg List.getLast? (List.cons.inj same).2
      rw [List.append_nil, List.getLast?_append] at last
      have differ : (0x62 : UInt8) = 0x63 := Option.some.inj last
      exact absurd differ (by decide)

/-- The trees agree with the reference on that path all the same. -/
theorem Router.lookup_straying_iff :
    (Router.empty.routeAll straying).lookup .get "/za/b" = .notFound ↔
      Reference Place.Overtakes (Bound (Router.empty.record straying)) .get "/za/b" .notFound := by
  refine Router.lookup_eq_iff_reference straying ?_ (uncut_of_regular ?_) .get "/za/b" ?_ .notFound
  · intro call member
    simp only [straying, List.mem_cons, List.not_mem_nil, or_false] at member
    rcases member with rfl | rfl
    · exact ⟨"\x7bx\x7d/b", by decide⟩
    · exact ⟨"\x7bx\x7da/c", by decide⟩
  · rw [record_straying]
    intro attempt member
    simp only [List.mem_cons, List.not_mem_nil, or_false] at member
    rcases member with rfl | rfl <;> rfl
  · rw [record_straying]
    intro attempt member refused
    simp only [List.mem_cons, List.not_mem_nil, or_false] at member
    rcases member with rfl | rfl <;> exact nomatch refused

/-! ## What has to be left out -/

/-- The second pattern is refused, but what was laid down of it takes the path away. -/
def refusing : List (RouteSpec × String) :=
  [(.exactly "/\x7bx\x7d/b" (.one .get), "first"),
    (.exactly "/\x7bx\x7da/\x7b*r\x7db" (.one .get), "second")]

theorem record_refusing :
    Router.empty.record refusing =
      [⟨⟨.only .get, "/\x7bx\x7d/b", ⟨"first", []⟩⟩, true⟩,
        ⟨⟨.only .get, "/\x7bx\x7da/\x7b*r\x7db", ⟨"second", []⟩⟩, false⟩] := by
  decide +kernel

/-- A refused pattern, which is no binding, may disturb a path. -/
theorem Router.lookup_refusing :
    (Router.empty.routeAll refusing).lookup .get "/za/b" = .notFound ∧
      Reference Place.Overtakes (Bound (Router.empty.record refusing)) .get "/za/b"
        (.found "first" [("x", "za")]) := by
  have only : ∀ other, Bound (Router.empty.record refusing) other →
      other = ⟨.only .get, "/\x7bx\x7d/b", ⟨"first", []⟩⟩ := by
    rintro _ ⟨attempt, member, accepted, rfl⟩
    rw [record_refusing] at member
    simp only [List.mem_cons, List.not_mem_nil, or_false] at member
    rcases member with rfl | rfl
    · rfl
    · cases accepted
  refine ⟨by decide +kernel, Reference.own _ _ ?_⟩
  refine ⟨⟨.only .get, "/\x7bx\x7d/b", ⟨"first", []⟩⟩, _, [[0x7a, 0x61]],
    ⟨⟨?_, rfl, spelled_straying, fits_straying, ?_⟩, ?_⟩, by decide, rfl, rfl⟩
  · refine ⟨⟨_, true⟩, ?_, rfl, rfl⟩
    rw [record_refusing]
    exact List.mem_cons_self
  · intro other others bound _ spelled
    cases only other bound
    cases spelled.unique spelled_straying
    exact Place.not_overtakes_self _ _
  · exact fun other others taken stays => Or.inl (only other stays.bound)

/-- The second pattern has two wildcards in a segment, and the tree takes the text it shows for
the second of them for the tail of the first pattern. -/
def crowding : List (RouteSpec × String) :=
  [(.exactly "/\x7bx\x7d\x7b\x7bb\x7d\x7d" (.one .get), "first"),
    (.exactly "/\x7bx\x7d\x7by\x7d" (.one .get), "second")]

theorem record_crowding :
    Router.empty.record crowding =
      [⟨⟨.only .get, "/\x7bx\x7d\x7b\x7bb\x7d\x7d", ⟨"first", []⟩⟩, true⟩,
        ⟨⟨.only .get, "/\x7bx\x7d\x7by\x7d", ⟨"second", []⟩⟩, true⟩] := by
  decide +kernel

theorem spelled_crowding :
    Piece.Spelled "/\x7bx\x7d\x7b\x7bb\x7d\x7d"
      [.literal 0x2f, .param [0x78], .literal 0x7b, .literal 0x62, .literal 0x7d] :=
  Piece.spelled_of_read rfl rfl

theorem spelled_crowded :
    Piece.Spelled "/\x7bx\x7d\x7by\x7d" [.literal 0x2f, .param [0x78], .param [0x79]] := by
  have glyphs : Glyph.read (encodeUtf8 "/\x7bx\x7d\x7by\x7d") =
      [⟨0x2f, false⟩, ⟨0x7b, false⟩, ⟨0x78, false⟩, ⟨0x7d, false⟩, ⟨0x7b, false⟩,
        ⟨0x79, false⟩, ⟨0x7d, false⟩] := by
    decide
  rw [Piece.Spelled, glyphs]
  have last : Piece.Spells [⟨0x7b, false⟩, ⟨0x79, false⟩, ⟨0x7d, false⟩] [.param [0x79]] :=
    .param ⟨0x79, false⟩ [] (by decide) (by decide) (fun _ => nofun) .done
  exact .literal ⟨0x2f, false⟩ (by decide) (by decide)
    (.param ⟨0x78, false⟩ [] (by decide) (by decide) (fun _ => nofun) last)

theorem fits_crowding :
    Place.Fits [.literal 0x2f, .param, .literal 0x7b, .literal 0x62, .literal 0x7d]
      [0x2f, 0x66, 0x7b, 0x62, 0x7d] [[0x66]] :=
  .literal _ (.param [0x66] (by decide) (by decide)
    (.literal _ (.literal _ (.literal _ .done))))

/-- A pattern that a tree takes for a text may disturb the pattern that has the text. -/
theorem Router.lookup_crowding :
    (Router.empty.routeAll crowding).lookup .get "/f\x7bb\x7d" = .notFound ∧
      Reference Place.Overtakes (Bound (Router.empty.record crowding)) .get "/f\x7bb\x7d"
        (.found "first" [("x", "f")]) := by
  have either : ∀ other, Bound (Router.empty.record crowding) other →
      other = ⟨.only .get, "/\x7bx\x7d\x7b\x7bb\x7d\x7d", ⟨"first", []⟩⟩ ∨
        other = ⟨.only .get, "/\x7bx\x7d\x7by\x7d", ⟨"second", []⟩⟩ := by
    rintro _ ⟨attempt, member, _, rfl⟩
    rw [record_crowding] at member
    simp only [List.mem_cons, List.not_mem_nil, or_false] at member
    rcases member with rfl | rfl
    · exact Or.inl rfl
    · exact Or.inr rfl
  refine ⟨by decide +kernel, Reference.own _ _ ?_⟩
  refine ⟨⟨.only .get, "/\x7bx\x7d\x7b\x7bb\x7d\x7d", ⟨"first", []⟩⟩, _, [[0x66]],
    ⟨⟨?_, rfl, spelled_crowding, fits_crowding, ?_⟩, ?_⟩, by decide, rfl, rfl⟩
  · refine ⟨⟨_, true⟩, ?_, rfl, rfl⟩
    rw [record_crowding]
    exact List.mem_cons_self
  · intro other others bound _ spelled overtakes
    rcases either other bound with rfl | rfl
    · cases spelled.unique spelled_crowding
      exact Place.not_overtakes_self _ _ overtakes
    · -- Behind the first parameter the second pattern has no text at all.
      cases spelled.unique spelled_crowded
      obtain ⟨_, _, same, _, further⟩ := Place.overtakes_literal_iff.mp overtakes
      obtain ⟨_, rfl⟩ := List.cons.inj same
      cases further with
      | param value _ _ behind => cases behind
      | longer value after _ _ _ longer => exact absurd longer (Nat.not_lt_zero _)
  · intro other others taken stays
    rcases either other stays.bound with rfl | rfl
    · exact Or.inl rfl
    · cases stays.spelled.unique spelled_crowded
      exact Or.inr (.cons _ (.cons _ (.param _ _ _)))

end FunctionGateway.Routing
