import FunctionGateway.Proofs.Http.Token
import FunctionGateway.Proofs.Http.Wording
import FunctionGateway.Proofs.Service.Recording
import FunctionGateway.Proofs.Text.Base64
import FunctionGateway.Proofs.Text.Splitting
import FunctionGateway.Proofs.Text.Trimming

/-!
# How credentials are presented

Credentials are presented in one form, up to the letter case of the scheme and the blanks round
the spelling.  A guard lets through exactly the requests whose first `Authorization` field has
this form, and answers all others itself.
-/

namespace FunctionGateway

open FunctionGateway.Http
open FunctionGateway.Text

/-! ## Texts in two parts -/

/-- The first occurrence of a character divides a text. -/
theorem splitAtFirst?_eq_some_iff {mark : Char} {text front behind : String} :
    splitAtFirst? mark text = some (front, behind) ↔
      mark ∉ front.toList ∧ text = front ++ String.singleton mark ++ behind := by
  have whole : text.toList =
      text.toList.takeWhile (· ≠ mark) ++ text.toList.dropWhile (· ≠ mark) :=
    List.takeWhile_append_dropWhile.symm
  have letters : text = front ++ String.singleton mark ++ behind ↔
      text.toList = front.toList ++ mark :: behind.toList := by
    rw [← String.toList_inj]
    simp
  rw [letters]
  constructor
  · intro divided
    rw [splitAtFirst?] at divided
    split at divided
    · exact nomatch divided
    · rename_i first rest found
      obtain ⟨rfl, rfl⟩ := Prod.mk.inj (Option.some.inj divided)
      have stops := List.head?_dropWhile_not (· ≠ mark) text.toList
      rw [found] at stops
      have same : first = mark := by simpa using stops
      rw [found, same] at whole
      rw [String.toList_ofList, String.toList_ofList]
      refine ⟨fun member => ?_, whole⟩
      simpa using List.mem_takeWhile_imp member
  · rintro ⟨absent, divided⟩
    have passed : ∀ letter ∈ front.toList, decide (letter ≠ mark) = true :=
      fun letter member => decide_eq_true fun same => absent (same ▸ member)
    have stops : ∀ letter ∈ (mark :: behind.toList).head?, decide (letter ≠ mark) = false := by
      simp
    have rest : text.toList.dropWhile (· ≠ mark) = mark :: behind.toList := by
      rw [divided, dropWhile_append_of_front passed stops]
    have before : text.toList.takeWhile (· ≠ mark) = front.toList := by
      rw [rest] at whole
      exact List.append_cancel_right (whole.symm.trans divided)
    rw [splitAtFirst?, rest, before]
    simp only [String.ofList_toList]

/-- The blanks that a field value may hold. -/
def isSpacing (letter : Char) : Bool :=
  letter = ' ' || letter = '\t'

theorem trimBlanks_eq_iff {text core : String} :
    trimBlanks text = core ↔ Strips isSpacing text.toList core.toList :=
  (@strips_toList_iff isSpacing text core).symm

/-! ## Visible bytes -/

theorem isText_of_visible {bytes : Bytes} (visible : ∀ byte ∈ bytes, isVisibleByte byte = true) :
    IsText bytes := by
  have each : ∀ code < 256, isVisibleByte (UInt8.ofNat code) = true →
      encodeUtf8 (String.singleton (Char.ofNat code)) = [UInt8.ofNat code] := by
    decide +kernel
  induction bytes with
  | nil => exact IsText.nil
  | cons byte rest inductionHypothesis =>
      have first := each byte.toNat byte.toNat_lt
      rw [UInt8.ofNat_toNat] at first
      have alone : IsText [byte] := ⟨_, first (visible byte List.mem_cons_self)⟩
      exact alone.append
        (inductionHypothesis fun other member => visible other (List.mem_cons_of_mem byte member))

/-- The text of a value is what it encodes, where all of it is visible. -/
theorem visible?_eq_some_iff {value : FieldValue} {text : String} :
    value.visible? = some text ↔
      (∀ byte ∈ value.bytes, isVisibleByte byte = true) ∧ value.bytes = encodeUtf8 text := by
  rw [FieldValue.visible?, ← decodeUtf8?_eq_some_iff, ← List.all_eq_true]
  by_cases visible : value.bytes.all isVisibleByte = true
  · simp [visible]
  · simp [visible]

/-! ## Spellings in a text -/

/-- A Base64 spelling holds no blanks. -/
theorem not_isSpacing_of_spelling {spelled : String} {bytes : Bytes}
    (spelling : encodeUtf8 spelled = Base64.encode bytes) {letter : Char}
    (member : letter ∈ spelled.toList) : isSpacing letter = false := by
  have different : ∀ mark : Char, ∀ byte, String.utf8EncodeChar mark = [byte] →
      byte ∉ Base64.encode bytes → letter ≠ mark := by
    rintro mark byte single absent rfl
    refine absent ?_
    rw [← spelling, encodeUtf8, List.mem_flatMap]
    exact ⟨letter, member, by rw [single]; exact List.mem_cons_self⟩
  have letters : ∀ byte ∈ [0x20, 0x09], byte ≠ Base64.pad ∧
      ∀ value < 64, byte ≠ Base64.letter value := by
    decide +kernel
  have absent : ∀ byte ∈ [0x20, 0x09], byte ∉ Base64.encode bytes := by
    intro byte blank inside
    rcases Base64.mem_encode inside with padding | ⟨value, small, same⟩
    · exact (letters byte blank).1 padding
    · exact (letters byte blank).2 value small same
  have notSpace := different ' ' 0x20 (by decide) (absent 0x20 (by decide))
  have notTab := different '\t' 0x09 (by decide) (absent 0x09 (by decide))
  simp [isSpacing, notSpace, notTab]

namespace Credentials

/-- User and password as one text. -/
def pair (credentials : Credentials) : String :=
  credentials.user ++ ":" ++ credentials.password

/-- A header reads as credentials that are spelled in it, but for a user with a colon. -/
theorem ofHeader?_eq_some_iff {text : String} {credentials : Credentials} :
    ofHeader? text = some credentials ↔
      ':' ∉ credentials.user.toList ∧
        ∃ scheme spelling : String, splitAtFirst? ' ' text = some (scheme, spelling) ∧
          scheme.toList.map Char.toLower = "basic".toList ∧
          encodeUtf8 (trimBlanks spelling) = Base64.encode (encodeUtf8 credentials.pair) := by
  constructor
  · intro read
    obtain ⟨⟨scheme, spelling⟩, divided, read⟩ := Option.bind_eq_some_iff.mp read
    simp only at read
    split at read
    · rename_i basic
      obtain ⟨bytes, decoded, read⟩ := Option.bind_eq_some_iff.mp read
      obtain ⟨whole, isText, read⟩ := Option.bind_eq_some_iff.mp read
      obtain ⟨⟨user, password⟩, parts, own⟩ := Option.bind_eq_some_iff.mp read
      obtain rfl := Option.some.inj own
      obtain ⟨plain, rfl⟩ := splitAtFirst?_eq_some_iff.mp parts
      rw [decodeUtf8?_eq_some_iff.mp isText] at decoded
      exact ⟨plain, scheme, spelling, divided, basic, Base64.decode?_eq_some_iff.mp decoded⟩
    · exact nomatch read
  · rintro ⟨plain, scheme, spelling, divided, basic, spelled⟩
    have decoded := Base64.decode?_eq_some_iff.mpr spelled
    have parts : splitAtFirst? ':' credentials.pair =
        some (credentials.user, credentials.password) :=
      splitAtFirst?_eq_some_iff.mpr ⟨plain, rfl⟩
    simp only [ofHeader?, divided, basic, if_true, decoded, decodeUtf8?_encodeUtf8, parts, bind,
      Option.bind_some]

/-- How credentials are presented in a field value: the scheme in any letter case, one space,
and the Base64 spelling of user and password with blanks round it.  There is no way to present
a user with a colon. -/
structure PresentedIn (credentials : Credentials) (value : FieldValue) : Prop where
  plain : ':' ∉ credentials.user.toList
  visible : ∀ byte ∈ value.bytes, isVisibleByte byte = true
  form : ∃ scheme before after : String,
    scheme.toList.map Char.toLower = "basic".toList ∧
      (∀ letter ∈ before.toList, letter = ' ' ∨ letter = '\t') ∧
      (∀ letter ∈ after.toList, letter = ' ' ∨ letter = '\t') ∧
      value.bytes = encodeUtf8 (scheme ++ " " ++ before) ++
        Base64.encode (encodeUtf8 (credentials.user ++ ":" ++ credentials.password)) ++
        encodeUtf8 after

/-- A request presents credentials in the first of its `Authorization` fields. -/
def PresentedBy (credentials : Credentials) (request : Request) : Prop :=
  ∃ (front behind : Fields) (name : FieldName) (value : FieldValue),
    request.fields = front ++ (name, value) :: behind ∧ name.text = "authorization" ∧
      (∀ field ∈ front, field.1.text ≠ "authorization") ∧ credentials.PresentedIn value

theorem isSpacing_iff {letter : Char} :
    isSpacing letter = true ↔ letter = ' ' ∨ letter = '\t' := by
  simp [isSpacing]

theorem presentedIn_of_ofHeader? {value : FieldValue} {text : String} {credentials : Credentials}
    (shown : value.visible? = some text) (read : ofHeader? text = some credentials) :
    credentials.PresentedIn value := by
  obtain ⟨visible, encoded⟩ := visible?_eq_some_iff.mp shown
  obtain ⟨plain, scheme, spelling, divided, basic, spelled⟩ := ofHeader?_eq_some_iff.mp read
  obtain ⟨_, rfl⟩ := splitAtFirst?_eq_some_iff.mp divided
  have strips : Strips isSpacing spelling.toList (trimBlanks spelling).toList :=
    trimBlanks_eq_iff.mp rfl
  obtain ⟨before, after, cut, blanks, blanksBehind⟩ := strips.cut
  have parts : encodeUtf8 spelling = encodeUtf8 (String.ofList before) ++
      encodeUtf8 (trimBlanks spelling) ++ encodeUtf8 (String.ofList after) := by
    rw [encodeUtf8, cut]
    simp only [encodeUtf8, List.flatMap_append, String.toList_ofList]
  refine ⟨plain, visible, scheme, String.ofList before, String.ofList after, basic, ?_, ?_, ?_⟩
  · intro letter member
    rw [String.toList_ofList] at member
    exact isSpacing_iff.mp (blanks letter member)
  · intro letter member
    rw [String.toList_ofList] at member
    exact isSpacing_iff.mp (blanksBehind letter member)
  · have front := encodeUtf8_append (scheme ++ " ") (String.ofList before)
    rw [encoded, encodeUtf8_append, parts, spelled, front]
    simp only [List.append_assoc]
    rfl

theorem ofHeader?_of_presentedIn {value : FieldValue} {credentials : Credentials}
    (presented : credentials.PresentedIn value) :
    ∃ text, value.visible? = some text ∧ ofHeader? text = some credentials := by
  obtain ⟨plain, visible, scheme, before, after, basic, blanks, blanksBehind, form⟩ := presented
  have visibleInside : ∀ byte ∈ Base64.encode (encodeUtf8 credentials.pair),
      isVisibleByte byte = true := by
    intro byte member
    refine visible byte ?_
    rw [form]
    exact List.mem_append_left _ (List.mem_append_right _ member)
  obtain ⟨spelled, spelling⟩ := isText_of_visible visibleInside
  have strips : trimBlanks (before ++ spelled ++ after) = spelled := by
    have inside := fun letter => @not_isSpacing_of_spelling spelled _ spelling letter
    refine trimBlanks_eq_iff.mpr ⟨⟨before.toList, after.toList, ?_, ?_, ?_⟩, ?_, ?_⟩
    · simp
    · exact fun letter member => isSpacing_iff.mpr (blanks letter member)
    · exact fun letter member => isSpacing_iff.mpr (blanksBehind letter member)
    · exact fun letter first => inside letter (List.mem_of_head? first)
    · exact fun letter last => inside letter (List.mem_of_getLast? last)
  have unspaced : ' ' ∉ scheme.toList := by
    intro member
    have lowered := List.mem_map_of_mem (f := Char.toLower) member
    rw [basic] at lowered
    exact absurd lowered (by decide)
  refine ⟨scheme ++ String.singleton ' ' ++ (before ++ spelled ++ after), ?_, ?_⟩
  · refine visible?_eq_some_iff.mpr ⟨visible, ?_⟩
    have written : value.bytes = encodeUtf8 (scheme ++ " " ++ before) ++
        Base64.encode (encodeUtf8 credentials.pair) ++ encodeUtf8 after := form
    rw [written, ← spelling, ← encodeUtf8_append, ← encodeUtf8_append]
    simp only [String.append_assoc]
    rfl
  · refine ofHeader?_eq_some_iff.mpr ⟨plain, scheme, before ++ spelled ++ after, ?_, basic, ?_⟩
    · exact splitAtFirst?_eq_some_iff.mpr ⟨unspaced, rfl⟩
    · rw [strips, spelling]

theorem eq_authorization_iff {name : FieldName} :
    name = FieldName.authorization ↔ name.text = "authorization" := by
  cases name
  simp [FieldName.authorization]

/-- The value that is looked up is the one in the first `Authorization` field. -/
theorem get?_authorization_iff {fields : Fields} {value : FieldValue} :
    fields.get? FieldName.authorization = some value ↔
      ∃ (front behind : Fields) (name : FieldName), fields = front ++ (name, value) :: behind ∧
        name.text = "authorization" ∧ ∀ field ∈ front, field.1.text ≠ "authorization" := by
  simp only [Fields.get?_eq_some_iff, ← eq_authorization_iff, ne_eq]
  constructor
  · rintro ⟨front, behind, split, others⟩
    exact ⟨front, behind, _, split, rfl, others⟩
  · rintro ⟨front, behind, name, split, rfl, others⟩
    exact ⟨front, behind, split, others⟩

/-- What stands in front of the first `Authorization` field and behind it has no part in what is
presented. -/
theorem presentedBy_iff {credentials : Credentials} {request : Request} {value : FieldValue}
    (first : request.fields.get? FieldName.authorization = some value) :
    credentials.PresentedBy request ↔ credentials.PresentedIn value := by
  constructor
  · rintro ⟨front, behind, name, own, split, named, others, presented⟩
    have found := get?_authorization_iff.mpr ⟨front, behind, name, split, named, others⟩
    obtain rfl : value = own := Option.some.inj (first.symm.trans found)
    exact presented
  · intro presented
    obtain ⟨front, behind, name, split, named, others⟩ := get?_authorization_iff.mp first
    exact ⟨front, behind, name, value, split, named, others, presented⟩

/-- Exactly the requests that present the credentials are accepted. -/
theorem accept_iff (credentials : Credentials) (request : Request) :
    credentials.accept request = true ↔ credentials.PresentedBy request := by
  rw [accept, beq_iff_eq, Request.field?]
  constructor
  · intro accepted
    obtain ⟨text, shown, read⟩ := Option.bind_eq_some_iff.mp accepted
    obtain ⟨value, first, shown⟩ := Option.bind_eq_some_iff.mp shown
    exact (presentedBy_iff first).mpr (presentedIn_of_ofHeader? shown read)
  · rintro ⟨front, behind, name, value, split, named, others, presented⟩
    have first := get?_authorization_iff.mpr ⟨front, behind, name, split, named, others⟩
    obtain ⟨text, shown, read⟩ := ofHeader?_of_presentedIn presented
    rw [first, Option.bind_some, shown, Option.bind_some, read]

theorem accept_eq_false_iff (credentials : Credentials) (request : Request) :
    credentials.accept request = false ↔ ¬ credentials.PresentedBy request := by
  rw [← accept_iff, Bool.not_eq_true]

end Credentials

/-! ## What a guard does -/

variable {α φ σ : Type}

/-- A guard passes on exactly the requests that present its credentials, unchanged, and answers
every other one with a refusal before anything inside has a part in it.  So a handler behind it
is called with those requests and with no others.  Fields in front of the first `Authorization`
field and behind it have no part in that. -/
theorem Service.guarded_call_presented (credentials : Credentials) (inner : Service α)
    (request : Request) :
    ((credentials.PresentedBy request ∧
        (∀ (backend : Backend α φ σ) (world : World σ),
          (Service.guarded credentials inner).call backend request world =
            inner.call backend request world) ∧
        ∀ (handler : α) (backend : Backend α φ σ) (world : World (σ × Calls α)),
          ((Service.guarded credentials (.handler handler)).call backend.recording request
            world).2.shared.2 = (handler, request) :: world.shared.2) ∨
      (¬ credentials.PresentedBy request ∧
        ∃ refusal : Response, refusal.IsRefusal ∧
          (∀ (backend : Backend α φ σ) (world : World σ),
            (Service.guarded credentials inner).call backend request world =
              (.done refusal, world)) ∧
          ∀ (handler : α) (backend : Backend α φ σ) (world : World (σ × Calls α)),
            (Service.guarded credentials (.handler handler)).call backend.recording request
              world = (.done refusal, world))) ∧
      ∀ (front behind : Fields) (name : FieldName) (value : FieldValue),
        name.text = "authorization" → (∀ field ∈ front, field.1.text ≠ "authorization") →
          (credentials.PresentedBy { request with fields := front ++ (name, value) :: behind } ↔
            credentials.PresentedIn value) := by
  constructor
  · by_cases presented : credentials.PresentedBy request
    · have accepted := (credentials.accept_iff request).mpr presented
      refine Or.inl ⟨presented, fun backend world => ?_, fun handler backend world => ?_⟩
      · rw [Service.call, if_pos accepted]
      · rw [Service.call, if_pos accepted]
        rfl
    · have rejected := (credentials.accept_iff request).not.mpr presented
      refine Or.inr ⟨presented, unauthorized, unauthorized_isRefusal, fun backend world => ?_,
        fun handler backend world => ?_⟩
      · rw [Service.call, if_neg rejected]
      · rw [Service.call, if_neg rejected]
  · intro front behind name value named others
    refine Credentials.presentedBy_iff (Credentials.get?_authorization_iff.mpr ?_)
    exact ⟨front, behind, name, rfl, named, others⟩

/-- The scheme in mixed case, blanks round the spelling and colons in the password, between a
field of another name and a second value.  With the values in the other order the request is
refused. -/
theorem Service.guarded_call_presented_mixed :
    let credentials : Credentials := ⟨"admin", "pa:ss"⟩
    let value : FieldValue := ⟨encodeUtf8 "bAsIc \t YWRtaW46cGE6c3M= ", by decide⟩
    let request : Request :=
      { method := .get
        target := ⟨"/system/info", none⟩
        fields := [(.contentType, plainText), (.authorization, value), (.authorization, plainText)]
        body := [] }
    let swapped : Request :=
      { request with fields := [(.authorization, plainText), (.authorization, value)] }
    credentials.PresentedBy request ∧
      (∀ (backend : Backend String Unit Unit) (world : World (Unit × Calls String)),
        ((Service.guarded credentials (.handler "info")).call backend.recording request
          world).2.shared.2 = ("info", request) :: world.shared.2) ∧
      ∃ refusal : Response, refusal.IsRefusal ∧
        ∀ (backend : Backend String Unit Unit) (world : World (Unit × Calls String)),
          (Service.guarded credentials (.handler "info")).call backend.recording swapped world =
            (.done refusal, world) := by
  intro credentials value request swapped
  have spelled : credentials.PresentedIn value :=
    ⟨by decide, by decide +kernel, "bAsIc", "\t ", " ", by decide, by simp, by simp,
      by decide +kernel⟩
  have foreign : ∀ field ∈ ([(.contentType, plainText)] : Fields),
      field.1.text ≠ "authorization" := by
    decide
  have presented : credentials.PresentedBy request :=
    ⟨[(.contentType, plainText)], [(.authorization, plainText)], .authorization, value, rfl, rfl,
      foreign, spelled⟩
  have unread : ¬ credentials.PresentedBy swapped :=
    (credentials.accept_iff swapped).not.mp (by decide +kernel)
  refine ⟨presented, fun backend => ?_, ?_⟩
  · rcases (guarded_call_presented (φ := Unit) (σ := Unit) credentials (.handler "info")
      request).1 with ⟨_, _, called⟩ | ⟨rejected, _⟩
    · exact called "info" backend
    · exact absurd presented rejected
  · rcases (guarded_call_presented (φ := Unit) (σ := Unit) credentials (.handler "info")
      swapped).1 with ⟨accepted, _⟩ | ⟨_, refusal, reads, _, turned⟩
    · exact absurd accepted unread
    · exact ⟨refusal, reads, turned "info"⟩

end FunctionGateway
