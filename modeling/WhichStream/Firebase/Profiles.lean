import WhichStream.Firebase.Callbacks
import WhichStream.Firebase.Retrievals

/-!
What is known about a user: it is what the look-ups of its account said, and no other step
of a run touches it.
-/

namespace WhichStream.Firebase

open EventMachine

namespace FIRUser

variable {γ : Type*} (u : FIRUser γ)

def profile : FIRUser γ := { u with tokenService := .initWithTokens none none none }

def blank : FIRUser γ := .initWithTokenService (.initWithTokens none none none)

-- What look-ups make of a user, one after the other.
def told (accounts : List GetAccountInfoResponseUser) : FIRUser γ :=
  accounts.foldl (fun u account => { u with anonymous := false }.updateWithGetAccountInfoResponse
    account) u

theorem told_append (accounts more : List GetAccountInfoResponseUser) :
    u.told (accounts ++ more) = (u.told accounts).told more := List.foldl_append ..

end FIRUser

def FIRAuthEvent.account (ref : Ref) : FIRAuthEvent → Option GetAccountInfoResponseUser
  | .gotAccountInfo _ _ other (.ok account) _ => if other = ref then some account else none
  | _ => none

namespace FIRAuth

variable {a b m : FIRAuth} {e : FIRAuthEvent} {ref other : Ref} {f : SaveFaults}

/-- A step that tells nothing about any user. -/
structure Known (a b : FIRAuth) : Prop where
  profile : ∀ ref, (b.users ref).profile = (a.users ref).profile
  allocated : a.allocated ≤ b.allocated

namespace Known

theorem of_users (h : b.users = a.users) (hallocated : b.allocated = a.allocated) : Known a b := by
  refine ⟨fun ref => ?_, hallocated.ge⟩
  rw [h]

theorem trans (h : Known a m) (h' : Known m b) : Known a b :=
  ⟨fun ref => (h'.profile ref).trans (h.profile ref), h.allocated.trans h'.allocated⟩

theorem setUser {user : FIRUser Completion} (h : user.profile = (a.users ref).profile) :
    Known a (a.setUser ref user) := by
  refine ⟨?_, le_rfl⟩
  intro other
  by_cases hr : other = ref
  · rw [hr, setUser_self, h]
  · rw [a.setUser_of_ne user hr]

theorem internalGetToken (a : FIRAuth) (ref : Ref) (c : Completion) :
    Known a (a.internalGetToken ref c) := by
  apply setUser
  rfl

end Known

theorem completeSignIn_users (a : FIRAuth) (call : Call) (k : ℕ) (result : Except ErrorCode Ref)
    (f : SaveFaults) : (a.completeSignIn call k result f).users = a.users := by
  have hs := a.completeSignIn_cases call k result f
  generalize a.completeSignIn call k result f = b at hs
  cases hs with
  | reported => rfl
  | updated _ hu => exact (Updated.sameWork a hu).users
  | failed => rfl

theorem gotToken_users (a : FIRAuth) (ref : Ref) (c : Completion) (result : Except ErrorCode Unit)
    (f : SaveFaults) : (a.gotToken ref c result f).users = a.users := by
  cases c with
  | auth call k =>
    cases result with
    | ok u => rfl
    | error e => apply completeSignIn_users
  | mail m => cases result <;> rfl

theorem internalGetTokenCallback_users (a : FIRAuth) (ref : Ref) (c : Completion)
    (result : FetchResult) (f : SaveFaults) :
    (a.internalGetTokenCallback ref c result f).users = a.users := by
  unfold internalGetTokenCallback
  split
  · next e _ =>
    rw [gotToken_users]
    exact (a.signOutIfTokenIsInvalid_sameWork ref (some e) f).users
  · have hsame := (a.updateKeychainWithUser_sameWork ref f).users
    split_ifs
    · dsimp only
      split
      · rw [gotToken_users, hsame]
      · rw [gotToken_users, hsame]
    · apply gotToken_users

theorem internalGetTokenCallback_known (s : FIRSecureTokenService Completion) (c : Completion)
    (result : FetchResult) :
    Known a ((a.setTokenService ref s).internalGetTokenCallback ref c result f) := by
  have hset : Known a (a.setTokenService ref s) := .setUser rfl
  apply hset.trans
  apply Known.of_users
  · apply internalGetTokenCallback_users
  · exact (internalGetTokenCallback_awaits _ ref c result f).allocated

/-- Nothing is known of an object that is not allocated yet. -/
def Fresh (auth : FIRAuth) : Prop :=
  ∀ ref, auth.allocated ≤ ref → (auth.users ref).profile = .blank

theorem Known.fresh (h : Known a b) (hfresh : a.Fresh) : b.Fresh := by
  intro ref hle
  rw [h.profile]
  exact hfresh ref (h.allocated.trans hle)

theorem retrieveUser_known (call : Call) (k : ℕ) (t : IssuedTokens) (h : a.Fresh) :
    Known a (a.retrieveUser call k t) := by
  refine ⟨?_, Nat.le_succ _⟩
  intro other
  by_cases hr : other = a.allocated
  · rw [hr, h a.allocated le_rfl]
    simp [retrieveUser, FIRAuth.internalGetToken, setTokenService, FIRUser.profile, FIRUser.blank,
      FIRUser.initWithTokenService]
  · simp [retrieveUser, FIRAuth.internalGetToken, setTokenService, hr, FIRAuth.setUser]

theorem signInWithEmail_known (a : FIRAuth) (call : Call) (email password : Text) :
    Known a (a.signInWithEmail call email password) := by
  have h : (a.signInWithEmail call email password).users = a.users ∧
      (a.signInWithEmail call email password).allocated = a.allocated := by
    unfold signInWithEmail
    cases call <;> dsimp only <;> split_ifs <;> exact ⟨rfl, rfl⟩
  exact .of_users h.1 h.2

theorem answered_known {r : Request} (h : a.answered r = some m) : Known a m := by
  unfold answered at h
  split_ifs at h
  obtain rfl := Option.some.inj h
  exact .of_users rfl rfl

theorem lookedUp_profile (account : GetAccountInfoResponseUser) :
    ((a.lookedUp ref account).users other).profile =
      (a.users other).profile.told (if ref = other then some account else none).toList := by
  by_cases hr : other = ref
  · rw [hr, if_pos rfl, lookedUp, setUser_self]
    rfl
  · rw [if_neg (Ne.symm hr), lookedUp, setUser_of_ne _ _ hr]
    rfl

/-- A step changes what is known of a user exactly by what a look-up of it says. -/
theorem profile_step (hr : Retrieving none a) (hfresh : a.Fresh) (hu : machine.step a e = some b) :
    (∀ ref, (b.users ref).profile = (a.users ref).profile.told (e.account ref).toList) ∧
      b.Fresh := by
  have hknown : ∀ {b : FIRAuth}, Known a b → (∀ ref, e.account ref = none) →
      (∀ ref, (b.users ref).profile = (a.users ref).profile.told (e.account ref).toList) ∧
        b.Fresh := by
    intro b h hnone
    refine ⟨fun ref => ?_, h.fresh hfresh⟩
    rw [hnone, h.profile]
    rfl
  cases e with
  | call call email password =>
    obtain rfl := Option.some.inj hu
    exact hknown (a.signInWithEmail_known call email password) (fun _ => rfl)
  | sendEmailVerification ref =>
    have hu : (if ref < a.allocated then some (a.startMail.internalGetToken ref (.mail a.mails))
      else none) = some b := hu
    split_ifs at hu
    obtain rfl := Option.some.inj hu
    have hstart : Known a a.startMail := .of_users rfl rfl
    exact hknown (hstart.trans (.internalGetToken _ ref _)) (fun _ => rfl)
  | signOut f =>
    have hu : (if a.currentUser.isNone then some a
      else some (a.updateCurrentUser none false true f).2) = some b := hu
    split_ifs at hu
    · obtain rfl := Option.some.inj hu
      exact hknown (.of_users rfl rfl) (fun _ => rfl)
    · obtain rfl := Option.some.inj hu
      have hsame := Updated.sameWork a (a.updateCurrentUser_cases none false f)
      exact hknown (.of_users hsame.users hsame.allocated) (fun _ => rfl)
  | tokens call k result =>
    obtain ⟨m, hm, rfl⟩ := Option.map_eq_some_iff.mp hu
    have hanswered := answered_known hm
    refine hknown ?_ (fun _ => rfl)
    cases result with
    | error e => exact hanswered.trans (.of_users rfl rfl)
    | ok t => exact hanswered.trans (retrieveUser_known call k t (hanswered.fresh hfresh))
  | runTask ref now =>
    obtain ⟨⟨outcome, s⟩, -, rfl⟩ := Option.map_eq_some_iff.mp hu
    refine hknown ?_ (fun _ => rfl)
    cases outcome with
    | calledBack c result => apply internalGetTokenCallback_known
    | requested _ => exact .setUser rfl
  | requestCompleted ref result f =>
    obtain ⟨⟨⟨c, fetched⟩, s⟩, -, rfl⟩ := Option.map_eq_some_iff.mp hu
    refine hknown ?_ (fun _ => rfl)
    apply internalGetTokenCallback_known
  | gotAccountInfo call k ref result f =>
    obtain ⟨m, hm, rfl⟩ := Option.map_eq_some_iff.mp hu
    have hanswered := answered_known hm
    cases result with
    | error e =>
      have hsame := m.completeSignIn_users call k (.error e) f
      have hallocated := (m.completeSignIn_awaits call k (.error e) f).allocated
      exact hknown (hanswered.trans (.of_users hsame hallocated)) (fun _ => rfl)
    | ok account =>
      have hretrieving : Retrieving (some ref) m := by
        apply hr.answered hm
        intro other
        simp only [Request.looksUp, decide_eq_true_eq, holds, Option.some.injEq]
      have hsame := (m.lookedUp ref account).completeSignIn_users call k (.ok ref) f
      have hallocated : ((m.lookedUp ref account).completeSignIn call k (.ok ref) f).allocated =
          m.allocated := ((m.lookedUp ref account).completeSignIn_awaits call k (.ok ref) f).allocated
      have htold : ∀ other,
          (((m.lookedUp ref account).completeSignIn call k (.ok ref) f).users other).profile =
            (a.users other).profile.told (if ref = other then some account else none).toList := by
        intro other
        rw [hsame, lookedUp_profile, hanswered.profile]
      refine ⟨htold, ?_⟩
      intro other hle
      have hle : m.allocated ≤ other := hallocated ▸ hle
      have hne : ref ≠ other := (hretrieving.allocated.trans_le hle).ne
      have hblank : (a.users other).profile = .blank := hfresh other (hanswered.allocated.trans hle)
      refine (htold other).trans ?_
      rw [if_neg hne, hblank]
      rfl
  | gotOOBConfirmationCode k ref error f =>
    obtain ⟨m, hm, rfl⟩ := Option.map_eq_some_iff.mp hu
    have hsame := m.signOutIfTokenIsInvalid_sameWork ref error f
    exact hknown ((answered_known hm).trans (.of_users hsame.users hsame.allocated)) (fun _ => rfl)
  | main =>
    have hu : a.step .main = some b := hu
    unfold step at hu
    dsimp only at hu
    split at hu
    · cases hu
    · obtain rfl := Option.some.inj hu
      exact hknown (.of_users rfl rfl) (fun _ => rfl)

section Runs

variable (firebaseAppName : String) (taggedPointer : String → Bool)
  (keychain : FIRAuthKeychain KeyedArchives.Archive) (reads : FIRAuthKeychain.ReadFaults)

theorem launch_fresh : (launch firebaseAppName taggedPointer keychain reads).Fresh := by
  obtain ⟨-, h⟩ | ⟨user, -, h⟩ := launch_cases firebaseAppName taggedPointer keychain reads
  · rw [h]
    exact fun _ _ => rfl
  · rw [h]
    have hsame := possiblyPost_sameWork (setCurrentUser { ((initWithAPIKey firebaseAppName
      taggedPointer keychain).getUser reads).2.setUser 0 user with allocated := 1 } (some 0))
    intro ref hle
    have hle : 1 ≤ ref := by
      rw [hsame.allocated] at hle
      exact hle
    rw [hsame.users]
    have hne : ref ≠ 0 := Nat.one_le_iff_ne_zero.mp hle
    simp [setCurrentUser, FIRAuth.setUser, hne]
    rfl

/-- In a run what is known of a user is what it was launched with, as the look-ups of its
account in that run told. -/
theorem profile_run {es : List FIRAuthEvent}
    (h : machine.run (launch firebaseAppName taggedPointer keychain reads) es = some b) (ref : Ref) :
    (b.users ref).profile =
      ((launch firebaseAppName taggedPointer keychain reads).users ref).profile.told
        (es.filterMap (FIRAuthEvent.account ref)) := by
  have hinvariant := Machine.invariant (I := fun es auth => (Retrieving none auth ∧ auth.Fresh) ∧
      ∀ ref, (auth.users ref).profile =
        ((launch firebaseAppName taggedPointer keychain reads).users ref).profile.told
          (es.filterMap (FIRAuthEvent.account ref))) ?_ ?_ h
  · exact hinvariant.2 ref
  · exact ⟨⟨.launch firebaseAppName taggedPointer keychain reads,
      launch_fresh firebaseAppName taggedPointer keychain reads⟩, fun _ => rfl⟩
  · rintro before t e u ⟨⟨hr, hfresh⟩, htold⟩ hu
    obtain ⟨hstep, hfresh'⟩ := profile_step hr hfresh hu
    refine ⟨⟨hr.step hu, hfresh'⟩, ?_⟩
    intro ref
    have hlast : [e].filterMap (FIRAuthEvent.account ref) = (e.account ref).toList := by
      cases htells : e.account ref <;> simp [htells]
    rw [hstep, htold, List.filterMap_append, FIRUser.told_append, hlast]

end Runs

end FIRAuth

end WhichStream.Firebase
