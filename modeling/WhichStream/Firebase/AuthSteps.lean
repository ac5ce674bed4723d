import WhichStream.Firebase.FIRAuth

/-!
What the functions of FirebaseAuth do to its state, one lemma for each, so that the
invariants need not look into them.
-/

namespace WhichStream.Firebase

open EventMachine KeyedArchives

/-- From `a` to `b` only the session has changed: the current user, the keychain, and what
was posted about them, at most `p` times. -/
structure SameWork (p : ℕ) (a b : FIRAuth) : Prop where
  users : b.users = a.users
  allocated : b.allocated = a.allocated
  requests : b.requests = a.requests
  started : b.started = a.started
  mails : b.mails = a.mails
  made : b.made = a.made
  calledBack : b.calledBack = a.calledBack
  taggedPointer : b.taggedPointer = a.taggedPointer
  userKey : b.userKey = a.userKey
  posted : ∃ n, n ≤ p ∧ b.mainQueue = a.mainQueue ++ List.replicate n .stateDidChange

namespace SameWork

variable {a b c : FIRAuth} {p q : ℕ}

theorem refl (a : FIRAuth) : SameWork p a a :=
  ⟨rfl, rfl, rfl, rfl, rfl, rfl, rfl, rfl, rfl, 0, Nat.zero_le p, (List.append_nil _).symm⟩

theorem trans (h : SameWork p a b) (h' : SameWork q b c) : SameWork (p + q) a c := by
  obtain ⟨n, hnp, hn⟩ := h.posted
  obtain ⟨m, hmq, hm⟩ := h'.posted
  refine ⟨h'.users.trans h.users, h'.allocated.trans h.allocated, h'.requests.trans h.requests,
    h'.started.trans h.started, h'.mails.trans h.mails, h'.made.trans h.made,
    h'.calledBack.trans h.calledBack, h'.taggedPointer.trans h.taggedPointer,
    h'.userKey.trans h.userKey, n + m, Nat.add_le_add hnp hmq, ?_⟩
  rw [hm, hn, List.append_assoc, List.replicate_add]

theorem completed (h : SameWork p a b) :
    b.mainQueue.flatMap Block.completed = a.mainQueue.flatMap Block.completed := by
  obtain ⟨n, -, hn⟩ := h.posted
  rw [hn, List.flatMap_append, List.flatMap_replicate]
  simp [Block.completed]

end SameWork

namespace FIRAuth

variable (auth : FIRAuth) {f : SaveFaults}

section Users

variable {ref other : Ref} (user : FIRUser Completion) (s : FIRSecureTokenService Completion)

@[simp] theorem setUser_self : (auth.setUser ref user).users ref = user := Function.update_self ..

@[simp] theorem setUser_of_ne (h : other ≠ ref) :
    (auth.setUser ref user).users other = auth.users other := Function.update_of_ne h ..

@[simp] theorem setTokenService_self :
    (auth.setTokenService ref s).users ref = { auth.users ref with tokenService := s } :=
  auth.setUser_self _

@[simp] theorem setTokenService_of_ne (h : other ≠ ref) :
    (auth.setTokenService ref s).users other = auth.users other := auth.setUser_of_ne _ h

theorem setTokenService_sameUserID (ref : Ref) (s : FIRSecureTokenService Completion) :
    (auth.setTokenService ref s).sameUserID ref = auth.sameUserID ref := by
  have huid : ∀ r, ((auth.setTokenService ref s).users r).userID = (auth.users r).userID := by
    intro r
    by_cases hr : r = ref
    · rw [hr, setTokenService_self]
    · rw [auth.setTokenService_of_ne s hr]
  unfold sameUserID
  simp only [huid]
  rfl

end Users

section Notifications

theorem possiblyPost_cases : auth.possiblyPostAuthStateChangeNotification =
    { auth with
      lastNotifiedUserToken := auth.rawAccessToken
      mainQueue := auth.possiblyPostAuthStateChangeNotification.mainQueue } := by
  unfold possiblyPostAuthStateChangeNotification
  split_ifs with h
  · rw [← h]
  · rfl

theorem possiblyPost_sameWork : SameWork 1 auth auth.possiblyPostAuthStateChangeNotification := by
  unfold possiblyPostAuthStateChangeNotification
  split_ifs with h
  · exact .refl _
  · exact ⟨rfl, rfl, rfl, rfl, rfl, rfl, rfl, rfl, rfl, 1, le_rfl, rfl⟩

@[simp] theorem possiblyPost_currentUser :
    auth.possiblyPostAuthStateChangeNotification.currentUser = auth.currentUser := by
  rw [possiblyPost_cases]

@[simp] theorem possiblyPost_keychain :
    auth.possiblyPostAuthStateChangeNotification.keychain = auth.keychain := by
  rw [possiblyPost_cases]

@[simp] theorem possiblyPost_log :
    auth.possiblyPostAuthStateChangeNotification.log = auth.log := by
  rw [possiblyPost_cases]

/-- The listeners have been told of the current user's token. -/
def Notified : Prop := auth.lastNotifiedUserToken = auth.rawAccessToken

theorem possiblyPost_notified : auth.possiblyPostAuthStateChangeNotification.Notified := by
  rw [Notified, possiblyPost_cases]
  rfl

end Notifications

section Saving

-- The keychain once the user is saved or removed.
def saved (user : Option Ref) (f : SaveFaults) : FIRAuthKeychain Archive :=
  match user with
  | none => (auth.keychain.removeDataForKey auth.userKey none f.legacyDelete).2
  | some ref => (auth.keychain.setData auth.userKey (auth.users ref).encodeWithCoder none).2

theorem saveUser_ok (user : Option Ref) (h : f.save = none) :
    auth.saveUser user f = (.ok (), { auth with keychain := auth.saved user f }) := by
  unfold saveUser saved
  cases user with
  | none =>
    rw [h]
    rfl
  | some ref =>
    have hok := @FIRAuthKeychain.setData_ok Archive auth.keychain auth.userKey
      (auth.users ref).encodeWithCoder
    dsimp only
    rw [h, hok.1]

theorem saveUser_fault (user : Option Ref) {fault : Fault} (h : f.save = some fault) :
    ∃ e, auth.saveUser user f = (.error e, auth) := by
  unfold saveUser
  cases user with
  | none =>
    rw [h]
    exact ⟨_, rfl⟩
  | some ref =>
    obtain ⟨hsame, e, he⟩ := @FIRAuthKeychain.setData_fault Archive auth.keychain auth.userKey
      (auth.users ref).encodeWithCoder fault
    dsimp only
    rw [h, hsame, he]
    exact ⟨e, rfl⟩

end Saving

/-- What becomes of the session when the current user is set. -/
inductive Updated (auth : FIRAuth) (user : Option Ref) (force : Bool) (f : SaveFaults) :
    Except KeychainError Unit × FIRAuth → Prop
  | same (h : user = auth.currentUser) :
      Updated auth user force f (.ok (), auth.possiblyPostAuthStateChangeNotification)
  | saved (h : user ≠ auth.currentUser) (hf : f.save = none) : Updated auth user force f
      (.ok (), ({ auth with keychain := auth.saved user f }.setCurrentUser
        user).possiblyPostAuthStateChangeNotification)
  | forced {e} (h : user ≠ auth.currentUser) (hf : f.save ≠ none) (hforce : force = true) :
      Updated auth user force f
        (.error e, (auth.setCurrentUser user).possiblyPostAuthStateChangeNotification)
  | failed {e} (h : user ≠ auth.currentUser) (hf : f.save ≠ none) (hforce : force = false) :
      Updated auth user force f (.error e, auth)

theorem updateCurrentUser_cases (user : Option Ref) (force : Bool) (f : SaveFaults) :
    Updated auth user force f (auth.updateCurrentUser user force true f) := by
  unfold updateCurrentUser
  by_cases h : user = auth.currentUser
  · rw [if_pos h]
    exact .same h
  · rw [if_neg h, if_pos rfl]
    dsimp only
    cases hf : f.save with
    | none =>
      rw [auth.saveUser_ok user hf]
      exact .saved h hf
    | some fault =>
      obtain ⟨e, he⟩ := auth.saveUser_fault user hf
      have hne : f.save ≠ none := by rw [hf]; exact Option.some_ne_none fault
      rw [he]
      cases force with
      | true => exact .forced h hne rfl
      | false => exact .failed h hne rfl

theorem Updated.sameWork {user : Option Ref} {force : Bool} {r : Except KeychainError Unit × FIRAuth}
    (h : Updated auth user force f r) : SameWork 1 auth r.2 := by
  cases h with
  | same h => exact auth.possiblyPost_sameWork
  | saved h hf =>
    refine SameWork.trans (p := 0) ?_ (possiblyPost_sameWork _)
    exact ⟨rfl, rfl, rfl, rfl, rfl, rfl, rfl, rfl, rfl, 0, le_rfl, (List.append_nil _).symm⟩
  | forced h hf hforce =>
    refine SameWork.trans (p := 0) ?_ (possiblyPost_sameWork _)
    exact ⟨rfl, rfl, rfl, rfl, rfl, rfl, rfl, rfl, rfl, 0, le_rfl, (List.append_nil _).symm⟩
  | failed h hf hforce => exact .refl _

theorem updateKeychainWithUser_cases (ref : Ref) (f : SaveFaults) :
    auth.updateKeychainWithUser ref f = (.ok (), auth) ∧ auth.currentUser ≠ some ref ∨
      auth.currentUser = some ref ∧
        (f.save = none ∧ auth.updateKeychainWithUser ref f = (.ok (),
            { auth with keychain := auth.saved (some ref) f }.possiblyPostAuthStateChangeNotification) ∨
          f.save ≠ none ∧ ∃ e, auth.updateKeychainWithUser ref f = (.error e, auth)) := by
  unfold updateKeychainWithUser
  split_ifs with h
  · refine Or.inr ⟨h, ?_⟩
    dsimp only
    cases hf : f.save with
    | none =>
      rw [auth.saveUser_ok (some ref) hf]
      exact Or.inl ⟨rfl, rfl⟩
    | some fault =>
      obtain ⟨e, he⟩ := auth.saveUser_fault (some ref) hf
      rw [he]
      exact Or.inr ⟨Option.some_ne_none fault, e, rfl⟩
  · exact Or.inl ⟨rfl, h⟩

theorem updateKeychainWithUser_sameWork (ref : Ref) (f : SaveFaults) :
    SameWork 1 auth (auth.updateKeychainWithUser ref f).2 := by
  obtain ⟨h, -⟩ | ⟨-, ⟨-, h⟩ | ⟨-, e, h⟩⟩ := auth.updateKeychainWithUser_cases ref f
  · rw [h]
    exact .refl _
  · rw [h]
    refine SameWork.trans (p := 0) ?_ (possiblyPost_sameWork _)
    exact ⟨rfl, rfl, rfl, rfl, rfl, rfl, rfl, rfl, rfl, 0, le_rfl, (List.append_nil _).symm⟩
  · rw [h]
    exact .refl _

/-- What an error of the service does to the session: the user it is about loses it. -/
inductive SignedOut (auth : FIRAuth) (ref : Ref) (error : Option ErrorCode) (f : SaveFaults) :
    FIRAuth → Prop
  | kept (h : ¬(error.any invalidatesToken = true ∧ auth.sameUserID ref = true)) :
      SignedOut auth ref error f auth
  | nobody (h : auth.currentUser = none) :
      SignedOut auth ref error f auth.possiblyPostAuthStateChangeNotification
  | removed (h : auth.currentUser ≠ none) (herror : error.any invalidatesToken = true)
      (hsame : auth.sameUserID ref = true) (hf : f.save = none) : SignedOut auth ref error f
        ({ auth with keychain := auth.saved none f }.setCurrentUser
          none).possiblyPostAuthStateChangeNotification
  | forced (h : auth.currentUser ≠ none) (herror : error.any invalidatesToken = true)
      (hsame : auth.sameUserID ref = true) (hf : f.save ≠ none) : SignedOut auth ref error f
        (auth.setCurrentUser none).possiblyPostAuthStateChangeNotification

theorem signOutIfTokenIsInvalid_cases (ref : Ref) (error : Option ErrorCode) (f : SaveFaults) :
    SignedOut auth ref error f (auth.signOutIfTokenIsInvalid ref error f) := by
  unfold signOutIfTokenIsInvalid signOutByForceWithUserID
  split_ifs with herror hsame
  · have hu := auth.updateCurrentUser_cases none true f
    generalize auth.updateCurrentUser none true true f = r at hu
    cases hu with
    | same h => exact .nobody h.symm
    | saved h hf => exact .removed h.symm herror hsame hf
    | forced h hf hforce => exact .forced h.symm herror hsame hf
    | failed h hf hforce => cases hforce
  · exact .kept (fun h => hsame h.2)
  · exact .kept (fun h => herror h.1)

theorem signOutIfTokenIsInvalid_sameWork (ref : Ref) (error : Option ErrorCode) (f : SaveFaults) :
    SameWork 1 auth (auth.signOutIfTokenIsInvalid ref error f) := by
  unfold signOutIfTokenIsInvalid signOutByForceWithUserID
  split_ifs with herror hsame
  · exact Updated.sameWork auth (auth.updateCurrentUser_cases none true f)
  · exact .refl _
  · exact .refl _

/-- The user that a sign-in flow asks for: the one it found, or none after a sign-up whose
account could not be looked up. -/
def Asks (call : Call) (result : Except ErrorCode Ref) (user : Option Ref) : Prop :=
  (∃ ref, result = .ok ref ∧ user = some ref) ∨
    call = .createUser ∧ (∃ e, result = .error e) ∧ user = none

inductive SignedIn (auth : FIRAuth) (call : Call) (k : ℕ) (result : Except ErrorCode Ref)
    (f : SaveFaults) : FIRAuth → Prop
  | reported {e} (hcall : call = .signIn) (hresult : result = .error e) :
      SignedIn auth call k result f (auth.callInMainThread call k (.error e))
  | updated {user mid} (h : Asks call result user) (hu : Updated auth user false f (.ok (), mid)) :
      SignedIn auth call k result f (mid.callInMainThread call k (.authResult user))
  | failed {user} (h : Asks call result user) (hne : user ≠ auth.currentUser)
      (hf : f.save ≠ none) : SignedIn auth call k result f
        (auth.callInMainThread call k (.error FIRAuthErrorCodeKeychainError))

theorem signInFlowCallback_cases {call : Call} {k : ℕ} {result : Except ErrorCode Ref}
    {user : Option Ref} {f : SaveFaults} (h : Asks call result user) :
    SignedIn auth call k result f (auth.signInFlowCallback call k (.ok user) f) := by
  unfold signInFlowCallback
  have hu := auth.updateCurrentUser_cases user false f
  dsimp only
  generalize auth.updateCurrentUser user false true f = r at hu
  obtain ⟨e | ok, mid⟩ := r
  · cases hu with
    | forced hne hf hforce => cases hforce
    | failed hne hf hforce => exact .failed h hne hf
  · exact .updated h hu

theorem completeSignIn_cases (call : Call) (k : ℕ) (result : Except ErrorCode Ref) (f : SaveFaults) :
    SignedIn auth call k result f (auth.completeSignIn call k result f) := by
  cases result with
  | ok ref => exact auth.signInFlowCallback_cases (Or.inl ⟨ref, rfl, rfl⟩)
  | error e =>
    cases call with
    | signIn => exact .reported rfl rfl
    | createUser => exact auth.signInFlowCallback_cases (Or.inr ⟨rfl, ⟨e, rfl⟩, rfl⟩)

section Launch

variable (firebaseAppName : String) (taggedPointer : String → Bool)
  (keychain : FIRAuthKeychain Archive) (f : FIRAuthKeychain.ReadFaults)

theorem launch_cases :
    let read := (initWithAPIKey firebaseAppName taggedPointer keychain).getUser f
    read.1 = none ∧ launch firebaseAppName taggedPointer keychain f = read.2 ∨
      ∃ user, read.1 = some user ∧ launch firebaseAppName taggedPointer keychain f =
        ({ read.2.setUser 0 user with allocated := 1 }.setCurrentUser
          (some 0)).possiblyPostAuthStateChangeNotification := by
  dsimp only
  unfold launch
  dsimp only
  split
  · next h => exact Or.inl ⟨h, rfl⟩
  · next user h =>
    refine Or.inr ⟨user, h, ?_⟩
    have hne : ¬some 0 = ({ ((initWithAPIKey firebaseAppName taggedPointer keychain).getUser f).2.setUser
        0 user with allocated := 1 } : FIRAuth).currentUser := by
      intro h
      cases h
    rw [updateCurrentUser, if_neg hne]
    rfl

theorem getUser_callbacks {auth : FIRAuth} {user : FIRUser Completion}
    (h : (auth.getUser f).1 = some user) : user.tokenService.callbacks = [] := by
  unfold getUser at h
  dsimp only at h
  split at h
  · cases h
  · next data _ =>
    obtain ⟨a, -, ha⟩ := Option.bind_eq_some_iff.mp h
    exact (FIRUser.initWithCoder_some ha).1

end Launch

end FIRAuth

end WhichStream.Firebase
