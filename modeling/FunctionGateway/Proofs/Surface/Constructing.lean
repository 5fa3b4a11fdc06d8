import FunctionGateway.Proofs.Authentication.Presenting
import FunctionGateway.Proofs.Surface.Listing
import FunctionGateway.Proofs.Surface.Sending
import FunctionGateway.Proofs.Text.Splitting
import FunctionGateway.Proofs.Text.Trimming
import Mathlib.Data.List.Induction

/-!
# Constructing a gateway

What keeps a gateway from being constructed is told by its configuration, by the files in its
secret directory and by the slots that are filled in the end, and of several obstacles the
first in a fixed order is reported.  Where there is none, a gateway is constructed, and how
its slots came to be filled has no part in its routes.
-/

namespace FunctionGateway

open FunctionGateway.Http
open FunctionGateway.Routing
open FunctionGateway.Text

variable {α : Type}

/-! ## Registering capabilities -/

/-- One change to a set of capabilities. -/
inductive Registration (α : Type) where
  | fill (capability : Capability) (handler : α)
  | withdraw (capability : Capability)

namespace Registration

def capability : Registration α → Capability
  | fill own _ => own
  | withdraw own => own

def apply (set : CapabilitySet α) : Registration α → CapabilitySet α
  | fill own handler => set.insert own handler
  | withdraw own => set.erase own

/-- Registrations leave a handler in a slot if it was put there and nothing happened to the slot
after that. -/
def Leave (registrations : List (Registration α)) (slot : Capability) (handler : α) : Prop :=
  ∃ earlier later, registrations = earlier ++ fill slot handler :: later ∧
    ∀ registration ∈ later, registration.capability ≠ slot

theorem get?_apply_of_ne (set : CapabilitySet α) {registration : Registration α}
    {slot : Capability} (other : registration.capability ≠ slot) :
    (apply set registration).get? slot = set.get? slot := by
  have unlike : ¬ slot = registration.capability := Ne.symm other
  cases registration with
  | fill own handler => exact (set.get?_insert own slot handler).trans (if_neg unlike)
  | withdraw own => exact (set.get?_erase own slot).trans (if_neg unlike)

theorem get?_foldl_of_ne {later : List (Registration α)} {slot : Capability}
    (others : ∀ registration ∈ later, registration.capability ≠ slot) (set : CapabilitySet α) :
    (later.foldl apply set).get? slot = set.get? slot := by
  induction later generalizing set with
  | nil => rfl
  | cons registration rest inductionHypothesis =>
      obtain ⟨own, behind⟩ := List.forall_mem_cons.mp others
      rw [List.foldl_cons, inductionHypothesis behind, get?_apply_of_ne set own]

end Registration

/-- The set that registrations make of an empty one. -/
def CapabilitySet.ofRegistrations (registrations : List (Registration α)) : CapabilitySet α :=
  registrations.foldl Registration.apply empty

/-- A slot holds what was last put into it. -/
theorem CapabilitySet.get?_ofRegistrations {registrations : List (Registration α)}
    {slot : Capability} {handler : α} :
    (ofRegistrations registrations).get? slot = some handler ↔
      Registration.Leave registrations slot handler := by
  constructor
  · intro filled
    induction registrations using List.reverseRecOn with
    | nil => cases filled
    | append_singleton earlier last inductionHypothesis =>
        rw [ofRegistrations, List.foldl_append, List.foldl_cons, List.foldl_nil] at filled
        by_cases own : last.capability = slot
        · subst own
          cases last with
          | fill capability placed =>
              have put := get?_insert (earlier.foldl Registration.apply empty) capability capability
                placed
              rw [if_pos rfl] at put
              obtain rfl : placed = handler := Option.some.inj (put.symm.trans filled)
              exact ⟨earlier, [], rfl, nofun⟩
          | withdraw capability =>
              have taken := get?_erase (earlier.foldl Registration.apply empty) capability capability
              rw [if_pos rfl] at taken
              cases taken.symm.trans filled
        · rw [Registration.get?_apply_of_ne _ own] at filled
          obtain ⟨front, later, rfl, others⟩ := inductionHypothesis filled
          refine ⟨front, later ++ [last], by simp, fun registration member => ?_⟩
          rcases List.mem_append.mp member with inside | final
          · exact others registration inside
          · rw [List.mem_singleton.mp final]
            exact own
  · rintro ⟨earlier, later, rfl, others⟩
    rw [ofRegistrations, List.foldl_append, List.foldl_cons,
      Registration.get?_foldl_of_ne others, Registration.apply, get?_insert, if_pos rfl]

/-! ## Reading the secret directory -/

/-- A directory holds a text under a name, in UTF-8. -/
def HoldsText (entries : List (String × FileEntry)) (name text : String) : Prop :=
  entries.lookup name = some (.file (encodeUtf8 text))

theorem readText_eq_ok_iff {entry : Option FileEntry} {text : String} :
    readText entry = .ok text ↔ entry = some (.file (encodeUtf8 text)) := by
  cases entry with
  | none => simp [readText]
  | some own =>
      cases own with
      | directory => simp [readText]
      | forbidden => simp [readText]
      | file content =>
          have decoded := @decodeUtf8?_eq_some_iff content text
          rw [Option.some.injEq, FileEntry.file.injEq, ← decoded, readText]
          cases decodeUtf8? content <;> simp

theorem HoldsText.unique {entries : List (String × FileEntry)} {name text other : String}
    (holds : HoldsText entries name text) (holdsToo : HoldsText entries name other) :
    text = other :=
  Except.ok.inj ((readText_eq_ok_iff.mpr holds).symm.trans (readText_eq_ok_iff.mpr holdsToo))

namespace SecretMount

variable {mount : SecretMount}

theorem readSecret_of_holds {name text : String} (holds : HoldsText mount.entries name text) :
    mount.readSecret name = .ok (trim text) := by
  rw [readSecret, readText_eq_ok_iff.mpr holds]

theorem readSecret_of_unreadable {name : String} {fault : ReadFault}
    (unreadable : readText (mount.entries.lookup name) = .error fault) :
    mount.readSecret name = .error ⟨mount.pathOf name, fault⟩ := by
  rw [readSecret, unreadable]

theorem read_of_holds {user password : String} (holds : HoldsText mount.entries userFile user)
    (holdsToo : HoldsText mount.entries passwordFile password) :
    mount.read = .ok ⟨trim user, trim password⟩ := by
  rw [read, readSecret_of_holds holds, readSecret_of_holds holdsToo]
  rfl

theorem read_of_user_unreadable {fault : ReadFault}
    (unreadable : readText (mount.entries.lookup userFile) = .error fault) :
    mount.read = .error ⟨mount.pathOf userFile, fault⟩ := by
  rw [read, readSecret_of_unreadable unreadable]
  rfl

theorem read_of_password_unreadable {user : String}
    (holds : HoldsText mount.entries userFile user) {fault : ReadFault}
    (unreadable : readText (mount.entries.lookup passwordFile) = .error fault) :
    mount.read = .error ⟨mount.pathOf passwordFile, fault⟩ := by
  rw [read, readSecret_of_holds holds, readSecret_of_unreadable unreadable]
  rfl

end SecretMount

/-! ## Binding up to a slot that must be filled -/

namespace Surface

variable {capabilities : CapabilitySet (Service α)} {deadline : Option Duration}
  {auth : Option Credentials}

theorem absent_eq_fail_iff :
    ∀ row ∈ table, row.absent = .fail ↔ row.capability ∈ Capability.required := by
  decide

theorem capability_table : table.map SurfaceRow.capability = Capability.all := by
  decide

theorem contribution_eq_missing_iff {row : SurfaceRow} (listed : row ∈ table) :
    contribution capabilities row = .missing ↔
      row.capability ∈ Capability.required ∧ capabilities.contains row.capability = false := by
  rw [← absent_eq_fail_iff row listed, contribution, CapabilitySet.contains]
  cases capabilities.get? row.capability with
  | some slot => simp
  | none => cases row.absent <;> simp

theorem bindRows_append {router changed : Router (Service α)} {front : List SurfaceRow}
    (bound : bindRows capabilities deadline auth router front = (changed, none))
    (rest : List SurfaceRow) :
    bindRows capabilities deadline auth router (front ++ rest) =
      bindRows capabilities deadline auth changed rest := by
  induction front generalizing router with
  | nil =>
      obtain rfl := (Prod.mk.inj bound).1
      rfl
  | cons row others inductionHypothesis =>
      obtain ⟨next, step, further⟩ := bindRows_cons_eq_none_iff.mp bound
      rw [List.cons_append, step.bindRows_cons, inductionHypothesis further]

/-- Rows from the first on are bound as long as no slot among them must be filled and is not. -/
theorem bindRows_front {front rest : List SurfaceRow} (split : table = front ++ rest)
    (present : ∀ row ∈ front, contribution capabilities row ≠ .missing) :
    ∃ changed, bindRows capabilities deadline auth Router.empty front = (changed, none) := by
  have listed : ∀ row ∈ front, row ∈ table :=
    fun row member => split ▸ List.mem_append_left rest member
  -- The routes of the whole table go together, so those in front do.
  obtain ⟨router, bound, _⟩ := Router.routeEach_settles
    (distinct_entries (Entry.service deadline auth) :
      Distinct ((entries capabilities).map _))
  rw [entries, split, List.filterMap_append, List.append_assoc, List.map_append,
    Router.routeEach_append] at bound
  have rows := bindRows_eq_routeEach deadline auth front listed present Router.empty
  generalize Router.empty.routeEach _ = outcome at rows bound
  obtain ⟨changed, fault⟩ := outcome
  cases fault with
  | some fault => cases (Prod.mk.inj bound).2
  | none => exact ⟨changed, rows⟩

/-- The first empty slot that must be filled ends the binding. -/
theorem bind_missing {earlier later : List Capability} {capability : Capability}
    (split : Capability.all = earlier ++ capability :: later)
    (present : ∀ other ∈ earlier, other ∈ Capability.required →
      capabilities.contains other = true)
    (required : capability ∈ Capability.required)
    (absent : capabilities.contains capability = false) :
    (bind Router.empty capabilities deadline auth).2 = some (.missing capability) := by
  obtain ⟨front, rest, whole, rfl, behind⟩ :=
    List.map_eq_append_iff.mp (capability_table.trans split)
  obtain ⟨row, others, rfl, rfl, _⟩ := List.map_eq_cons_iff.mp behind
  have listed : ∀ other ∈ front ++ row :: others, other ∈ table := fun _ member => whole ▸ member
  have through : ∀ other ∈ front, contribution capabilities other ≠ .missing := by
    intro other member missing
    have inTable := listed other (List.mem_append_left _ member)
    obtain ⟨asked, empty⟩ := (contribution_eq_missing_iff inTable).mp missing
    have filled := present other.capability (List.mem_map_of_mem member) asked
    exact absurd (filled.symm.trans empty) (by decide)
  have missing : contribution capabilities row = .missing := by
    have inTable := listed row (List.mem_append_right _ List.mem_cons_self)
    exact (contribution_eq_missing_iff inTable).mpr ⟨required, absent⟩
  obtain ⟨changed, bound⟩ :=
    @bindRows_front _ capabilities deadline auth front (row :: others) whole through
  rw [bind, whole, bindRows_append bound, bindRows_of_missing _ _ _ _ _ missing]

end Surface

/-! ## Obstacles in order -/

namespace Gateway

variable (config : ServerConfig) (entries : List (String × FileEntry))
  (capabilities : CapabilitySet (Service α))

/-- With authentication on, both secret files are there and hold text. -/
def SecretsHeld : Prop :=
  config.enableBasicAuth = true →
    ∀ name ∈ [SecretMount.userFile, SecretMount.passwordFile], ∃ text, HoldsText entries name text

/-- All that a gateway needs to be constructed. -/
structure Admitted : Prop where
  head : 8192 ≤ config.maxHeaderBytes
  secrets : SecretsHeld config entries
  complete : ∀ capability ∈ Capability.required, capabilities.contains capability = true

/-- The obstacle that is reported: each one only if none of those in front of it is there. -/
inductive Obstacle : GatewayError → Prop
  | head :
      config.maxHeaderBytes < 8192 →
      Obstacle (.config (.headTooSmall config.maxHeaderBytes))
  | user (fault : ReadFault) :
      8192 ≤ config.maxHeaderBytes →
      config.enableBasicAuth = true →
      readText (entries.lookup SecretMount.userFile) = .error fault →
      Obstacle (.credentials
        ⟨SecretMount.pathOf ⟨config.secretMountPath, entries⟩ SecretMount.userFile, fault⟩)
  | password (user : String) (fault : ReadFault) :
      8192 ≤ config.maxHeaderBytes →
      config.enableBasicAuth = true →
      HoldsText entries SecretMount.userFile user →
      readText (entries.lookup SecretMount.passwordFile) = .error fault →
      Obstacle (.credentials
        ⟨SecretMount.pathOf ⟨config.secretMountPath, entries⟩ SecretMount.passwordFile, fault⟩)
  /-- The first in declaration order of the required capabilities that are not there. -/
  | capability (earlier later : List Capability) (own : Capability) :
      8192 ≤ config.maxHeaderBytes →
      SecretsHeld config entries →
      Capability.all = earlier ++ own :: later →
      (∀ other ∈ earlier, other ∈ Capability.required → capabilities.contains other = true) →
      own ∈ Capability.required →
      capabilities.contains own = false →
      Obstacle (.missingCapability own)

/-- What the guards of a gateway enforce: nothing with authentication off, and else what the two
files hold, without the white space round it. -/
inductive Enforces : Option Credentials → Prop
  | off : config.enableBasicAuth = false → Enforces none
  | on (credentials : Credentials) (user password : String) :
      config.enableBasicAuth = true →
      HoldsText entries SecretMount.userFile user →
      HoldsText entries SecretMount.passwordFile password →
      Strips isBlank user.toList credentials.user.toList →
      Strips isBlank password.toList credentials.password.toList →
      Enforces (some credentials)

/-- Configuration and files tell what is enforced. -/
theorem Enforces.unique {config : ServerConfig} {entries : List (String × FileEntry)}
    {auth other : Option Credentials} (enforces : Enforces config entries auth)
    (enforcesToo : Enforces config entries other) : auth = other := by
  cases enforces with
  | off disabled =>
      cases enforcesToo with
      | off _ => rfl
      | on _ _ _ enabled => cases disabled.symm.trans enabled
  | on credentials user password enabled holds holdsToo strips stripsToo =>
      cases enforcesToo with
      | off disabled => cases disabled.symm.trans enabled
      | on rival userToo passwordToo _ held heldToo stripped strippedToo =>
          obtain rfl := holds.unique held
          obtain rfl := holdsToo.unique heldToo
          have users : credentials.user = rival.user :=
            (trim_eq_iff.mpr strips).symm.trans (trim_eq_iff.mpr stripped)
          have passwords : credentials.password = rival.password :=
            (trim_eq_iff.mpr stripsToo).symm.trans (trim_eq_iff.mpr strippedToo)
          cases credentials
          cases rival
          exact congrArg some (congr (congrArg Credentials.mk users) passwords)

/-- A gateway as it is constructed, with what its guards enforce. -/
structure Assembled (auth : Option Credentials) (gateway : Gateway α) : Prop where
  configured : gateway.config = config
  enforces : Enforces config entries auth
  /-- The table is told by the slots that are filled. -/
  listed : gateway.router.Lists (Surface.rows capabilities.contains)
  /-- Whoever asks for a row gets to the handler in its slot, in the layers of the row. -/
  calls : ∀ row ∈ Surface.table, ∀ handler, capabilities.get? row.capability = some handler →
    ∀ (request : Request) name rest, row.capability.methods.allows request.method = true →
      row.capability.form.Has (Percent.decode request.path) name rest →
        ∃ params, gateway.router.resolve request =
          .found (row.service (some config.writeTimeout) auth handler) params
  /-- Whoever asks for a guarded row without presenting what is enforced is turned away. -/
  turned : ∀ credentials, auth = some credentials →
    ∀ row ∈ Surface.table, row.capability ∈ Surface.authRequired →
      ∀ handler, capabilities.get? row.capability = some handler →
        ∀ (request : Request) name rest, row.capability.methods.allows request.method = true →
          row.capability.form.Has (Percent.decode request.path) name rest →
            ¬ credentials.PresentedBy request →
              ∀ {φ σ : Type} (backend : Backend α φ σ) (world : World σ),
                TurnedAway backend world (dispatch backend gateway.router request world)

variable {config entries capabilities}

theorem validate_eq_ok (head : 8192 ≤ config.maxHeaderBytes) : config.validate = .ok () :=
  if_neg (Nat.not_lt.mpr head)

theorem validate_eq_error (head : config.maxHeaderBytes < 8192) :
    config.validate = .error (.headTooSmall config.maxHeaderBytes) :=
  if_pos head

theorem holds_or_unreadable (entries : List (String × FileEntry)) (name : String) :
    (∃ text, HoldsText entries name text) ∨
      ∃ fault, readText (entries.lookup name) = .error fault := by
  cases read : readText (entries.lookup name) with
  | ok text => exact Or.inl ⟨text, readText_eq_ok_iff.mp read⟩
  | error fault => exact Or.inr ⟨fault, rfl⟩

/-- Where all that is asked for is held, there is something to enforce. -/
theorem exists_asked (secrets : SecretsHeld config entries) :
    ∃ auth, asked config (SecretMount.read ⟨config.secretMountPath, entries⟩) = .ok auth := by
  cases enabled : config.enableBasicAuth with
  | false => exact ⟨none, by simp [asked, enabled]⟩
  | true =>
      obtain ⟨user, holds⟩ := secrets enabled SecretMount.userFile List.mem_cons_self
      obtain ⟨password, holdsToo⟩ := secrets enabled SecretMount.passwordFile
        (List.mem_cons_of_mem _ List.mem_cons_self)
      have read : SecretMount.read ⟨config.secretMountPath, entries⟩ =
          .ok ⟨trim user, trim password⟩ := SecretMount.read_of_holds holds holdsToo
      exact ⟨some ⟨trim user, trim password⟩, by simp [asked, enabled, read, Except.map]⟩

/-- The credentials that are read are those that are to be enforced. -/
theorem enforces_of_asked {auth : Option Credentials}
    (read : asked config (SecretMount.read ⟨config.secretMountPath, entries⟩) = .ok auth) :
    Enforces config entries auth := by
  rw [asked] at read
  cases enabled : config.enableBasicAuth with
  | false =>
      rw [enabled, if_neg Bool.false_ne_true] at read
      obtain rfl := Except.ok.inj read
      exact Enforces.off enabled
  | true =>
      rw [enabled, if_pos rfl] at read
      rcases holds_or_unreadable entries SecretMount.userFile with
        ⟨user, holds⟩ | ⟨fault, unreadable⟩
      · rcases holds_or_unreadable entries SecretMount.passwordFile with
          ⟨password, holdsToo⟩ | ⟨fault, unreadable⟩
        · rw [SecretMount.read_of_holds holds holdsToo] at read
          obtain rfl := Except.ok.inj read
          exact Enforces.on _ user password enabled holds holdsToo (trim_eq_iff.mp rfl)
            (trim_eq_iff.mp rfl)
        · rw [SecretMount.read_of_password_unreadable holds unreadable] at read
          cases read
      · rw [SecretMount.read_of_user_unreadable unreadable] at read
        cases read

/-- A secret file that cannot be read keeps a gateway from being constructed. -/
theorem ofMount_of_unread (head : 8192 ≤ config.maxHeaderBytes)
    (enabled : config.enableBasicAuth = true) {file : UnreadableFile}
    (unread : SecretMount.read ⟨config.secretMountPath, entries⟩ = .error file) :
    ofMount config capabilities entries = .error (.credentials file) := by
  refine ofSource_of_unreadable (validate_eq_ok head) ?_
  rw [asked, enabled, if_pos rfl, unread]
  rfl

/-- An obstacle is what is reported. -/
theorem ofMount_of_obstacle {error : GatewayError}
    (obstacle : Obstacle config entries capabilities error) :
    ofMount config capabilities entries = .error error := by
  cases obstacle with
  | head small => exact ofSource_of_invalid (validate_eq_error small)
  | user fault head enabled unreadable =>
      exact ofMount_of_unread head enabled (SecretMount.read_of_user_unreadable unreadable)
  | password user fault head enabled holds unreadable =>
      exact ofMount_of_unread head enabled
        (SecretMount.read_of_password_unreadable holds unreadable)
  | capability earlier later own head secrets split present required absent =>
      obtain ⟨auth, read⟩ := exists_asked secrets
      have missing := @Surface.bind_missing _ capabilities (some config.writeTimeout) auth
        earlier later own split present required absent
      rw [ofMount, ofSource_of_asked (validate_eq_ok head) read]
      generalize Surface.bind Router.empty capabilities _ auth = outcome at missing ⊢
      obtain ⟨router, fault⟩ := outcome
      obtain rfl : fault = some (.missing own) := missing
      rfl

theorem ofMount_of_admitted (admitted : Admitted config entries capabilities) :
    ∃ gateway, ofMount config capabilities entries = .ok gateway := by
  obtain ⟨auth, read⟩ := exists_asked admitted.secrets
  obtain ⟨router, bound, _⟩ :=
    Surface.bind_eq_none admitted.complete (some config.writeTimeout) auth
  refine ⟨⟨config, router⟩, ?_⟩
  rw [ofMount, ofSource_of_asked (validate_eq_ok admitted.head) read, bound]
  rfl

/-- Either all is there that is needed, or there is an obstacle. -/
theorem admitted_or_obstacle :
    Admitted config entries capabilities ∨
      ∃ error, Obstacle config entries capabilities error := by
  by_cases head : config.maxHeaderBytes < 8192
  · exact Or.inr ⟨_, Obstacle.head head⟩
  have enough : 8192 ≤ config.maxHeaderBytes := Nat.not_lt.mp head
  by_cases secrets : SecretsHeld config entries
  · by_cases complete :
        ∀ capability ∈ Capability.required, capabilities.contains capability = true
    · exact Or.inl ⟨enough, secrets, complete⟩
    · -- The first capability that is required and absent ends the search in declaration order.
      let lacking (own : Capability) : Bool :=
        decide (own ∈ Capability.required) && !capabilities.contains own
      obtain ⟨capability, absent⟩ := Classical.not_forall.mp complete
      obtain ⟨required, empty⟩ := Classical.not_imp.mp absent
      have someLacks : (Capability.all.find? lacking).isSome = true :=
        List.find?_isSome.mpr ⟨capability, Capability.mem_all capability, by
          simp [lacking, required, empty]⟩
      obtain ⟨own, first⟩ := Option.isSome_iff_exists.mp someLacks
      obtain ⟨lacks, earlier, later, split, passed⟩ := List.find?_eq_some_iff_append.mp first
      simp only [lacking, Bool.and_eq_true, decide_eq_true_eq, Bool.not_eq_true'] at lacks
      refine Or.inr ⟨_, Obstacle.capability earlier later own enough secrets split ?_ lacks.1
        lacks.2⟩
      intro other member asked
      simpa [lacking, asked] using passed other member
  · obtain ⟨enabled, unheld⟩ := Classical.not_imp.mp secrets
    rcases holds_or_unreadable entries SecretMount.userFile with
      ⟨user, holds⟩ | ⟨fault, unreadable⟩
    · rcases holds_or_unreadable entries SecretMount.passwordFile with
        ⟨password, holdsToo⟩ | ⟨fault, unreadable⟩
      · refine absurd (fun name member => ?_) unheld
        rcases List.mem_pair.mp member with rfl | rfl
        · exact ⟨user, holds⟩
        · exact ⟨password, holdsToo⟩
      · exact Or.inr ⟨_, Obstacle.password user fault enough enabled holds unreadable⟩
    · exact Or.inr ⟨_, Obstacle.user fault enough enabled unreadable⟩

/-- What is constructed is put together from the configuration, the files and the slots. -/
theorem assembled_of_ofMount {gateway : Gateway α}
    (built : ofMount config capabilities entries = .ok gateway) :
    ∃ auth, Assembled config entries capabilities auth gateway := by
  obtain ⟨_, configured, auth, read, bound⟩ := ofSource_eq_ok_iff.mp built
  refine ⟨auth, configured, enforces_of_asked read, Surface.lists_bind bound, ?_, ?_⟩
  · intro row listed handler filled request name rest allowed has
    have offered := Surface.Offered.slot row handler listed filled
    exact ⟨_, (Surface.resolve_iff_answers bound request _).mpr
      (Surface.Answers.found _ name rest ⟨offered, allowed, has⟩)⟩
  · rintro credentials rfl row listed guarded handler filled request name rest allowed has
      unpresented φ σ backend world
    have offered := Surface.Offered.slot row handler listed filled
    have rejected : credentials.accept (request.withParams (PathForm.shown name rest)) = false :=
      (credentials.accept_eq_false_iff request).mpr unpresented
    rw [dispatch_eq_call, Surface.target_of_applies bound ⟨offered, allowed, has⟩]
    exact row.call_of_rejected backend (List.contains_iff_mem.mpr guarded) config.writeTimeout
      credentials handler rejected world

/-- A gateway is constructed if all is there that is needed, and not otherwise; of several
obstacles the first is reported, and no route is ever in the way of another.  Its guards turn away
whoever does not present what the files hold, each of its rows calls the handler last put in its
slot, and its table is the same for all gateways with the same slots filled. -/
theorem ofMount_settled (config : ServerConfig) (entries : List (String × FileEntry))
    (registrations : List (Registration (Service α))) :
    let capabilities := CapabilitySet.ofRegistrations registrations
    let outcome := ofMount config capabilities entries
    ((∃ gateway, outcome = .ok gateway) ↔ Admitted config entries capabilities) ∧
      (∀ error, outcome = .error error ↔ Obstacle config entries capabilities error) ∧
      (∀ fault, outcome ≠ .error (.route fault)) ∧
      (∀ slot handler, capabilities.get? slot = some handler ↔
        Registration.Leave registrations slot handler) ∧
      ∀ gateway, outcome = .ok gateway →
        (∃ auth, Assembled config entries capabilities auth gateway) ∧
          ∀ (otherConfig : ServerConfig) (otherEntries : List (String × FileEntry))
            (others : List (Registration (Service α))) (other : Gateway α),
            ofMount otherConfig (CapabilitySet.ofRegistrations others) otherEntries = .ok other →
              (∀ slot, (CapabilitySet.ofRegistrations others).contains slot =
                capabilities.contains slot) →
                other.router.table = gateway.router.table := by
  intro capabilities outcome
  have reported : ∀ error, outcome = .error error ↔
      Obstacle config entries capabilities error := by
    intro error
    constructor
    · intro failed
      rcases @admitted_or_obstacle _ config entries capabilities with
        admitted | ⟨own, obstacle⟩
      · obtain ⟨gateway, built⟩ := ofMount_of_admitted admitted
        cases failed.symm.trans built
      · obtain rfl : error = own :=
          Except.error.inj (failed.symm.trans (ofMount_of_obstacle obstacle))
        exact obstacle
    · exact ofMount_of_obstacle
  refine ⟨⟨?_, ofMount_of_admitted⟩, reported, ?_,
    fun _ _ => CapabilitySet.get?_ofRegistrations, ?_⟩
  · rintro ⟨gateway, built⟩
    rcases @admitted_or_obstacle _ config entries capabilities with
      admitted | ⟨error, obstacle⟩
    · exact admitted
    · cases built.symm.trans (ofMount_of_obstacle obstacle)
  · intro fault failed
    cases (reported _).mp failed
  · intro gateway built
    refine ⟨assembled_of_ofMount built, ?_⟩
    intro otherConfig otherEntries others other builtToo same
    obtain ⟨_, assembled⟩ := assembled_of_ofMount built
    obtain ⟨_, assembledToo⟩ := assembled_of_ofMount builtToo
    have listed := assembledToo.listed
    rw [funext same] at listed
    exact listed.table_eq assembled.listed

/-- All slots are filled, one of them twice, and one is emptied again; the files end in a line feed
as most tools leave it. -/
theorem ofMount_settled_mounted :
    let config : ServerConfig := { enableBasicAuth := true }
    let entries : List (String × FileEntry) :=
      [("basic-auth-password", .file (encodeUtf8 "  s3cret\n")),
        ("basic-auth-user", .file (encodeUtf8 "admin\n"))]
    let registrations : List (Registration (Service String)) :=
      (Capability.all.map fun own => .fill own (.handler own.name)) ++
        [.withdraw .health, .fill .info (.handler "replaced")]
    let capabilities := CapabilitySet.ofRegistrations registrations
    ∃ gateway, ofMount config capabilities entries = .ok gateway ∧
      Assembled config entries capabilities (some ⟨"admin", "s3cret"⟩) gateway := by
  intro config entries registrations capabilities
  obtain ⟨constructed, _, _, _, assembled⟩ := ofMount_settled config entries registrations
  have admitted : Admitted config entries capabilities := by
    refine ⟨by decide, fun _ name member => ?_, by decide⟩
    rcases List.mem_pair.mp member with rfl | rfl
    · exact ⟨"admin\n", rfl⟩
    · exact ⟨"  s3cret\n", rfl⟩
  obtain ⟨gateway, built⟩ := constructed.mpr admitted
  obtain ⟨⟨auth, parts⟩, _⟩ := assembled gateway built
  have enforced : Enforces config entries (some ⟨"admin", "s3cret"⟩) :=
    Enforces.on _ "admin\n" "  s3cret\n" rfl rfl rfl (trim_eq_iff.mp (by decide))
      (trim_eq_iff.mp (by decide))
  obtain rfl := parts.enforces.unique enforced
  exact ⟨gateway, built, parts⟩

end Gateway

end FunctionGateway
