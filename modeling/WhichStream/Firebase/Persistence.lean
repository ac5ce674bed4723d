import WhichStream.Firebase.Callbacks
import WhichStream.Firebase.Retrievals

/-!
What a relaunch finds: the keychain keeps the user that is signed in, unless something that
was removed, or should have been, is left behind, or the user could not be restored.
-/

namespace WhichStream.Firebase

open EventMachine KeyedArchives

namespace FIRUser

def identity (user : FIRUser Completion) : User := ⟨user.userID.getD "", user.emailVerified⟩

def unarchived (data : Option Archive) : Option User := (data.bind initWithCoder).map identity

@[simp] theorem unarchived_encode (user : FIRUser Completion) :
    unarchived (some user.encodeWithCoder) = if user.restorable then some user.identity else none := by
  unfold unarchived
  rw [Option.bind_some, archive_round_trip]
  split_ifs
  · rfl
  · rfl

end FIRUser

namespace FIRAuth

variable (auth : FIRAuth) {a b : FIRAuth} {f : SaveFaults} {ref : Ref}

theorem session_eq : auth.session = (auth.currentUser.map auth.users).map FIRUser.identity := by
  rw [Option.map_map]
  rfl

def keptUser : Option User := FIRUser.unarchived (auth.keychain.kept auth.userKey)

def legacyUser : Option User := FIRUser.unarchived (auth.keychain.legacyData auth.userKey)

def Keeps : Prop := auth.keptUser = auth.session

/-- The keychain has one legacy item at most, and a current user that could not be restored
is not in it either. -/
structure Filed : Prop where
  once : (auth.keychain.hits (FIRAuthKeychain.legacyGenericPasswordQuery auth.userKey)).length ≤ 1
  current : ∀ ref, auth.currentUser = some ref →
    (auth.users ref).restorable = true ∨ auth.keptUser = none

section Launch

variable {firebaseAppName : String} {taggedPointer : String → Bool}
  {keychain : FIRAuthKeychain Archive} {f : FIRAuthKeychain.ReadFaults} {data : Option Archive}

theorem launch_reads (hread : (keychain.dataForKey (firebaseAppName ++ "_firebase_user") f).1 = .ok data) :
    let start := launch firebaseAppName taggedPointer keychain f
    start.currentUser.map start.users = data.bind FIRUser.initWithCoder ∧
      start.userKey = firebaseAppName ++ "_firebase_user" ∧
      start.keychain = (keychain.dataForKey (firebaseAppName ++ "_firebase_user") f).2 := by
  have hget : ((initWithAPIKey firebaseAppName taggedPointer keychain).getUser f).1 =
      data.bind FIRUser.initWithCoder := by
    unfold getUser
    dsimp only [initWithAPIKey, userKey]
    rw [hread]
  dsimp only
  obtain ⟨hnone, h⟩ | ⟨user, hsome, h⟩ := launch_cases firebaseAppName taggedPointer keychain f
  · rw [h, ← hget, hnone]
    exact ⟨rfl, rfl, rfl⟩
  · have hwork := possiblyPost_sameWork (setCurrentUser { ((initWithAPIKey firebaseAppName
      taggedPointer keychain).getUser f).2.setUser 0 user with allocated := 1 } (some 0))
    rw [h, ← hget, hsome, possiblyPost_currentUser, hwork.users]
    refine ⟨?_, hwork.userKey, possiblyPost_keychain _⟩
    have hself : (((initWithAPIKey firebaseAppName taggedPointer keychain).getUser f).2.setUser 0
      user).users 0 = user := setUser_self ..
    exact congrArg some hself

end Launch

theorem relaunch_session (h : auth.Filed) {reads : FIRAuthKeychain.ReadFaults}
    (hreads : reads.Succeed) : (auth.relaunch reads).session = auth.keptUser := by
  have hread := FIRAuthKeychain.dataForKey_result (FIRAuthKeychain.relaunch_sound h.once)
    hreads.copy hreads.legacyCopy hreads.save
  obtain ⟨huser, -, -⟩ := @launch_reads _ auth.taggedPointer _ _ _ hread
  rw [session_eq]
  exact congrArg (Option.map FIRUser.identity) huser

/-- Quitting here and launching again, with a keychain that can be read, gives the session
that there was. -/
def Survives : Prop := ∀ reads : FIRAuthKeychain.ReadFaults, reads.Succeed →
  (auth.relaunch reads).session = auth.session

theorem survives_iff (h : auth.Filed) : auth.Survives ↔ auth.Keeps := by
  constructor
  · intro hs
    have hreads : (⟨none, none, none, none⟩ : FIRAuthKeychain.ReadFaults).Succeed := ⟨rfl, rfl, rfl⟩
    rw [Keeps, ← auth.relaunch_session h hreads]
    exact hs _ hreads
  · intro hk reads hreads
    rw [auth.relaunch_session h hreads, hk]

theorem filed_launch (firebaseAppName : String) (taggedPointer : String → Bool)
    {keychain : FIRAuthKeychain Archive} {reads : FIRAuthKeychain.ReadFaults}
    (honce : (keychain.hits (FIRAuthKeychain.legacyGenericPasswordQuery
      (firebaseAppName ++ "_firebase_user"))).length ≤ 1)
    (hreads : reads.Succeed) :
    let start := launch firebaseAppName taggedPointer keychain.relaunch reads
    start.Filed ∧ start.Keeps := by
  have hread := FIRAuthKeychain.dataForKey_result (FIRAuthKeychain.relaunch_sound honce)
    hreads.copy hreads.legacyCopy hreads.save
  obtain ⟨huser, hkey, hkeychain⟩ := @launch_reads _ taggedPointer _ _ _ hread
  have hlegacy : (keychain.relaunch.hits (FIRAuthKeychain.legacyGenericPasswordQuery
      (firebaseAppName ++ "_firebase_user"))).length ≤ 1 := honce
  obtain ⟨hkept, honce'⟩ := FIRAuthKeychain.dataForKey_kept hlegacy reads
  dsimp only
  set start := launch firebaseAppName taggedPointer keychain.relaunch reads
  have hkeptUser : start.keptUser = start.session := by
    rw [session_eq, huser, keptUser, hkey, hkeychain, hkept]
    rfl
  refine ⟨⟨by rw [hkey, hkeychain]; exact honce', ?_⟩, hkeptUser⟩
  intro ref href
  rw [href, Option.map_some] at huser
  obtain ⟨archive, -, harchive⟩ := Option.bind_eq_some_iff.mp huser.symm
  exact Or.inl (FIRUser.initWithCoder_some harchive).2

/-- From `a` to `b` neither the keychain nor who is signed in changes. -/
structure SameFile (a b : FIRAuth) : Prop where
  keychain : b.keychain = a.keychain
  userKey : b.userKey = a.userKey
  currentUser : b.currentUser = a.currentUser
  users : ∀ ref, a.currentUser = some ref → (b.users ref).identity = (a.users ref).identity ∧
    ((a.users ref).restorable = true → (b.users ref).restorable = true)

namespace SameFile

theorem of_users (hkeychain : b.keychain = a.keychain) (hkey : b.userKey = a.userKey)
    (hcur : b.currentUser = a.currentUser) (husers : b.users = a.users) : SameFile a b :=
  ⟨hkeychain, hkey, hcur, fun _ _ => by rw [husers]; exact ⟨rfl, id⟩⟩

theorem trans {c : FIRAuth} (h : SameFile a b) (h' : SameFile b c) : SameFile a c := by
  refine ⟨h'.keychain.trans h.keychain, h'.userKey.trans h.userKey,
    h'.currentUser.trans h.currentUser, ?_⟩
  intro ref href
  obtain ⟨hid, hrestorable⟩ := h.users ref href
  obtain ⟨hid', hrestorable'⟩ := h'.users ref (h.currentUser.trans href)
  exact ⟨hid'.trans hid, hrestorable' ∘ hrestorable⟩

theorem keptUser (h : SameFile a b) : b.keptUser = a.keptUser := by
  rw [FIRAuth.keptUser, h.keychain, h.userKey, FIRAuth.keptUser]

theorem filed (h : SameFile a b) (ha : a.Filed) : b.Filed := by
  refine ⟨by rw [h.keychain, h.userKey]; exact ha.once, ?_⟩
  intro ref href
  rw [h.currentUser] at href
  rw [h.keptUser]
  exact (ha.current ref href).imp_left (h.users ref href).2

theorem keeps (h : SameFile a b) : b.Keeps ↔ a.Keeps := by
  have hsession : b.session = a.session := by
    unfold session
    rw [h.currentUser]
    cases hcur : a.currentUser with
    | none => rfl
    | some ref => exact congrArg some (h.users ref hcur).1
  rw [Keeps, h.keptUser, hsession, Keeps]

end SameFile

section Updates

theorem possiblyPost_sameFile (auth : FIRAuth) :
    SameFile auth auth.possiblyPostAuthStateChangeNotification :=
  .of_users auth.possiblyPost_keychain auth.possiblyPost_sameWork.userKey
    auth.possiblyPost_currentUser auth.possiblyPost_sameWork.users

/-- The removal of the user would leave a legacy item that a relaunch reads. -/
def Lingers (auth : FIRAuth) (f : SaveFaults) : Prop :=
  (auth.keychain.legacyEntryDeletedForKey auth.userKey = true ∨ f.legacyDelete ≠ none) ∧
    auth.legacyUser ≠ none

theorem removed_keptUser (auth : FIRAuth) (f : SaveFaults) :
    FIRUser.unarchived ((auth.saved none f).kept auth.userKey) = none ↔ ¬auth.Lingers f := by
  have hkept := auth.keychain.removeData_kept auth.userKey f.legacyDelete
  unfold saved Lingers
  dsimp only
  rw [hkept]
  cases auth.keychain.legacyEntryDeletedForKey auth.userKey with
  | true => simp [legacyUser]
  | false =>
    cases f.legacyDelete with
    | none => simp [FIRUser.unarchived]
    | some fault => simp [legacyUser]

theorem saved_once (h : a.Filed) (user : Option Ref) (f : SaveFaults) :
    ((a.saved user f).hits (FIRAuthKeychain.legacyGenericPasswordQuery a.userKey)).length ≤ 1 := by
  unfold saved
  cases user with
  | none =>
    dsimp only
    rw [(a.keychain.removeData_legacy a.userKey f.legacyDelete).2]
    split_ifs
    · exact h.once
    · exact Nat.zero_le 1
  | some ref =>
    dsimp only
    rw [(a.keychain.setData_kept a.userKey (a.users ref).encodeWithCoder).2]
    exact h.once

theorem saved_keptUser (auth : FIRAuth) (ref : Ref) (f : SaveFaults) :
    FIRUser.unarchived ((auth.saved (some ref) f).kept auth.userKey) =
      if (auth.users ref).restorable then some (auth.users ref).identity else none := by
  have hkept := auth.keychain.setData_kept auth.userKey (auth.users ref).encodeWithCoder
  unfold saved
  dsimp only
  rw [hkept.1, FIRUser.unarchived_encode]

/-- What is kept once nobody is signed in. -/
theorem signedOut_keeps (h : (b.keychain.hits (FIRAuthKeychain.legacyGenericPasswordQuery
    b.userKey)).length ≤ 1) (hcur : b.currentUser = none) :
    b.Filed ∧ (b.Keeps ↔ b.keptUser = none) := by
  refine ⟨⟨h, fun _ href => by rw [hcur] at href; cases href⟩, ?_⟩
  rw [Keeps, session, hcur]
  rfl

theorem removed_keeps (h : a.Filed) (f : SaveFaults) :
    let b := ({ a with keychain := a.saved none f }.setCurrentUser
      none).possiblyPostAuthStateChangeNotification
    b.currentUser = none ∧ b.Filed ∧ (b.Keeps ↔ ¬a.Lingers f) := by
  have hfile := possiblyPost_sameFile ({ a with keychain := a.saved none f }.setCurrentUser none)
  obtain ⟨hfiled, hkeeps⟩ := signedOut_keeps (b := { a with keychain := a.saved none f }.setCurrentUser
    none) (saved_once h none f) rfl
  refine ⟨possiblyPost_currentUser _, hfile.filed hfiled, ?_⟩
  rw [hfile.keeps, hkeeps]
  exact a.removed_keptUser f

theorem forced_keeps (h : a.Filed) :
    let b := (a.setCurrentUser none).possiblyPostAuthStateChangeNotification
    b.currentUser = none ∧ b.Filed ∧ (b.Keeps ↔ a.keptUser = none) := by
  have hfile := possiblyPost_sameFile (a.setCurrentUser none)
  obtain ⟨hfiled, hkeeps⟩ := signedOut_keeps (b := a.setCurrentUser none) h.once rfl
  exact ⟨possiblyPost_currentUser _, hfile.filed hfiled, hfile.keeps.trans hkeeps⟩

theorem saved_keeps (h : a.Filed) (ref : Ref) (f : SaveFaults) :
    let b := ({ a with keychain := a.saved (some ref) f }.setCurrentUser
      (some ref)).possiblyPostAuthStateChangeNotification
    b.Filed ∧ (b.Keeps ↔ (a.users ref).restorable = true) := by
  set mid := { a with keychain := a.saved (some ref) f }.setCurrentUser (some ref)
  have hfile := possiblyPost_sameFile mid
  have hkept : mid.keptUser =
      if (a.users ref).restorable then some (a.users ref).identity else none :=
    a.saved_keptUser ref f
  have hsession : mid.session = some (a.users ref).identity := rfl
  have hfiled : mid.Filed := by
    refine ⟨saved_once h (some ref) f, ?_⟩
    rintro r hr
    obtain rfl := Option.some.inj hr
    have husers : mid.users = a.users := rfl
    rw [husers, hkept]
    cases (a.users ref).restorable with
    | true => exact Or.inl rfl
    | false => exact Or.inr rfl
  refine ⟨hfile.filed hfiled, ?_⟩
  rw [hfile.keeps, Keeps, hkept, hsession]
  cases (a.users ref).restorable with
  | true => exact iff_of_true rfl rfl
  | false => exact iff_of_false (fun h => by cases h) Bool.false_ne_true

end Updates

section Callbacks

variable {call : Call} {k : ℕ} {c : Completion} {e : ErrorCode} {error : Option ErrorCode}

theorem callInMainThread_sameFile (auth : FIRAuth) (call : Call) (k : ℕ) (outcome : Outcome) :
    SameFile auth (auth.callInMainThread call k outcome) := .of_users rfl rfl rfl rfl

/-- The error signs the current user out, whether the keychain lets go of it or not. -/
def Revokes (auth : FIRAuth) (ref : Ref) (error : Option ErrorCode) : Prop :=
  auth.currentUser ≠ none ∧ error.any invalidatesToken = true ∧ auth.sameUserID ref = true

theorem signOutIfTokenIsInvalid_keeps (h : a.Filed) (hk : a.Keeps) (ref : Ref)
    (error : Option ErrorCode) (f : SaveFaults) :
    let b := a.signOutIfTokenIsInvalid ref error f
    ¬a.Revokes ref error ∧ SameFile a b ∨
      a.Revokes ref error ∧ b.currentUser = none ∧ b.Filed ∧
        (b.Keeps ↔ ¬(f.save ≠ none ∨ a.Lingers f)) := by
  have hs := a.signOutIfTokenIsInvalid_cases ref error f
  dsimp only
  generalize a.signOutIfTokenIsInvalid ref error f = b at hs
  cases hs with
  | kept hkept => exact Or.inl ⟨fun hr => hkept hr.2, .of_users rfl rfl rfl rfl⟩
  | nobody hn => exact Or.inl ⟨fun hr => hr.1 hn, a.possiblyPost_sameFile⟩
  | removed hcur herror hsame hf =>
    obtain ⟨hnone, hfiled, hkeeps⟩ := removed_keeps h f
    refine Or.inr ⟨⟨hcur, herror, hsame⟩, hnone, hfiled, hkeeps.trans (not_congr ?_)⟩
    rw [hf]
    simp
  | forced hcur herror hsame hf =>
    obtain ⟨hnone, hfiled, hkeeps⟩ := forced_keeps h
    refine Or.inr ⟨⟨hcur, herror, hsame⟩, hnone, hfiled, hkeeps.trans ?_⟩
    refine iff_of_false ?_ (fun hn => hn (Or.inl hf))
    -- The keychain still has the user that was signed in.
    obtain ⟨ref', href⟩ := Option.ne_none_iff_exists'.mp hcur
    rw [hk, session, href]
    exact Option.some_ne_none _

/-- A sign-up whose account cannot be looked up signs the current user out. -/
def Clears (auth : FIRAuth) (c : Completion) (f : SaveFaults) : Prop :=
  (∃ k, c = .auth .createUser k) ∧ auth.currentUser ≠ none ∧ f.save = none

theorem completeSignIn_error_keeps (h : a.Filed) (call : Call) (k : ℕ) (e : ErrorCode)
    (f : SaveFaults) :
    let b := a.completeSignIn call k (.error e) f
    ¬a.Clears (.auth call k) f ∧ SameFile a b ∨
      a.Clears (.auth call k) f ∧ b.Filed ∧ (b.Keeps ↔ ¬a.Lingers f) := by
  have hs := a.completeSignIn_cases call k (.error e) f
  dsimp only
  generalize a.completeSignIn call k (.error e) f = b at hs
  have hnone : ∀ user, Asks call (.error e) user → call = .createUser ∧ user = none := by
    rintro user (⟨ref, hok, -⟩ | ⟨hcall, -, hnone⟩)
    · cases hok
    · exact ⟨hcall, hnone⟩
  cases hs with
  | reported hcall hresult =>
    refine Or.inl ⟨?_, a.callInMainThread_sameFile ..⟩
    rintro ⟨⟨j, hj⟩, -⟩
    rw [hcall] at hj
    cases hj
  | @updated user mid hasks hu =>
    obtain ⟨rfl, rfl⟩ := hnone user hasks
    cases hu with
    | same hcur =>
      refine Or.inl ⟨fun hc => hc.2.1 hcur.symm, ?_⟩
      exact a.possiblyPost_sameFile.trans (callInMainThread_sameFile _ _ _ _)
    | saved hcur hf =>
      obtain ⟨-, hfiled, hkeeps⟩ := removed_keeps h f
      have hfile := callInMainThread_sameFile ({ a with keychain := a.saved none f }.setCurrentUser
        none).possiblyPostAuthStateChangeNotification .createUser k (.authResult none)
      exact Or.inr ⟨⟨⟨k, rfl⟩, hcur.symm, hf⟩, hfile.filed hfiled, hfile.keeps.trans hkeeps⟩
  | failed hasks hne hf => exact Or.inl ⟨fun hc => hf hc.2.2, a.callInMainThread_sameFile ..⟩

theorem completeSignIn_ok_keeps (h : a.Filed) (hk : a.Keeps) (hne : a.currentUser ≠ some ref)
    (call : Call) (k : ℕ) (f : SaveFaults) :
    let b := a.completeSignIn call k (.ok ref) f
    b.Filed ∧ (b.Keeps ↔ ¬(f.save = none ∧ (a.users ref).restorable = false)) := by
  have hs := a.completeSignIn_cases call k (.ok ref) f
  dsimp only
  generalize a.completeSignIn call k (.ok ref) f = b at hs
  have hsome : ∀ user, Asks call (.ok ref) user → user = some ref := by
    rintro user (⟨other, hok, rfl⟩ | ⟨-, ⟨e, he⟩, -⟩)
    · rw [Except.ok.inj hok]
    · cases he
  cases hs with
  | reported hcall hresult => cases hresult
  | @updated user mid hasks hu =>
    obtain rfl := hsome user hasks
    cases hu with
    | same hcur => exact absurd hcur.symm hne
    | saved hcur hf =>
      obtain ⟨hfiled, hkeeps⟩ := saved_keeps h ref f
      have hfile := callInMainThread_sameFile ({ a with keychain := a.saved (some ref) f
        }.setCurrentUser (some ref)).possiblyPostAuthStateChangeNotification call k
          (.authResult (some ref))
      refine ⟨hfile.filed hfiled, hfile.keeps.trans (hkeeps.trans ?_)⟩
      rw [hf]
      simp
  | failed hasks hne' hf =>
    have hfile := a.callInMainThread_sameFile call k (.error FIRAuthErrorCodeKeychainError)
    exact ⟨hfile.filed h, iff_of_true (hfile.keeps.mpr hk) (fun hn => hf hn.1)⟩

theorem gotToken_error_keeps (h : a.Filed) (ref : Ref) (c : Completion) (e : ErrorCode)
    (f : SaveFaults) :
    let b := a.gotToken ref c (.error e) f
    ¬a.Clears c f ∧ SameFile a b ∨ a.Clears c f ∧ b.Filed ∧ (b.Keeps ↔ ¬a.Lingers f) := by
  cases c with
  | auth call k => exact completeSignIn_error_keeps h call k e f
  | mail m =>
    refine Or.inl ⟨?_, .of_users rfl rfl rfl rfl⟩
    rintro ⟨⟨k, hk⟩, -⟩
    cases hk

theorem gotToken_ok_sameFile (auth : FIRAuth) (ref : Ref) (c : Completion) (f : SaveFaults) :
    SameFile auth (auth.gotToken ref c (.ok ()) f) := by
  cases c with
  | auth call k => exact .of_users rfl rfl rfl rfl
  | mail m => exact .of_users rfl rfl rfl rfl

theorem internalGetTokenCallback_error_keeps {result : FetchResult} (h : a.Filed) (hk : a.Keeps)
    (hresult : result.error = some e) (ref : Ref) (c : Completion) (f : SaveFaults) :
    let b := a.internalGetTokenCallback ref c result f
    b.Filed ∧ (b.Keeps ↔ ¬(a.Revokes ref (some e) ∧ f.save ≠ none ∨
      (a.Revokes ref (some e) ∨ a.Clears c f) ∧ a.Lingers f)) := by
  unfold internalGetTokenCallback
  rw [hresult]
  dsimp only
  obtain ⟨hnot, hfile⟩ | ⟨hrevokes, hnone, hfiled, hkeeps⟩ :=
    signOutIfTokenIsInvalid_keeps h hk ref (some e) f
  · have hclears : (a.signOutIfTokenIsInvalid ref (some e) f).Clears c f ↔ a.Clears c f := by
      rw [Clears, hfile.currentUser, Clears]
    have hlingers : (a.signOutIfTokenIsInvalid ref (some e) f).Lingers f ↔ a.Lingers f := by
      rw [Lingers, legacyUser, hfile.keychain, hfile.userKey, Lingers, legacyUser]
    obtain ⟨hkept, hfile'⟩ | ⟨hcleared, hfiled, hkeeps⟩ :=
      gotToken_error_keeps (hfile.filed h) ref c e f
    · refine ⟨hfile'.filed (hfile.filed h), ?_⟩
      rw [hclears] at hkept
      exact iff_of_true (hfile'.keeps.mpr (hfile.keeps.mpr hk)) (by tauto)
    · rw [hclears] at hcleared
      rw [hlingers] at hkeeps
      exact ⟨hfiled, hkeeps.trans (by tauto)⟩
  · obtain ⟨-, hfile'⟩ | ⟨hcleared, -⟩ := gotToken_error_keeps hfiled ref c e f
    · refine ⟨hfile'.filed hfiled, hfile'.keeps.trans (hkeeps.trans (not_congr ?_))⟩
      have hsave : a.Clears c f → f.save = none := fun hc => hc.2.2
      tauto
    · exact absurd hnone hcleared.2.1

theorem updateKeychainWithUser_keeps (h : a.Filed) (hk : a.Keeps) (ref : Ref) (f : SaveFaults) :
    (a.updateKeychainWithUser ref f).2.Filed ∧ (a.updateKeychainWithUser ref f).2.Keeps := by
  obtain ⟨hu, -⟩ | ⟨hcur, ⟨-, hu⟩ | ⟨-, e, hu⟩⟩ := a.updateKeychainWithUser_cases ref f
  · rw [hu]
    exact ⟨h, hk⟩
  · rw [hu]
    set mid : FIRAuth := { a with keychain := a.saved (some ref) f }
    have hfile := possiblyPost_sameFile mid
    have hsession : a.session = some (a.users ref).identity := by
      rw [session, hcur]
      rfl
    -- A user that is kept can be restored, so what is saved now is kept too.
    have hrestorable : (a.users ref).restorable = true := by
      obtain hr | hnone := h.current ref hcur
      · exact hr
      · rw [hk, hsession] at hnone
        cases hnone
    have hkept : mid.keptUser = some (a.users ref).identity := by
      have hsaved := a.saved_keptUser ref f
      rw [if_pos hrestorable] at hsaved
      exact hsaved
    refine ⟨hfile.filed ⟨saved_once h (some ref) f, ?_⟩, hfile.keeps.mpr (hkept.trans hsession.symm)⟩
    intro r hr
    obtain rfl := Option.some.inj (hcur.symm.trans hr)
    exact Or.inl hrestorable
  · rw [hu]
    exact ⟨h, hk⟩

theorem internalGetTokenCallback_ok_keeps {result : FetchResult} (h : a.Filed) (hk : a.Keeps)
    (hresult : result.error = none) (hr : Retrieving (c.retrieves ref) a) (f : SaveFaults) :
    (a.internalGetTokenCallback ref c result f).Filed ∧
      (a.internalGetTokenCallback ref c result f).Keeps := by
  unfold internalGetTokenCallback
  rw [hresult]
  dsimp only
  split_ifs
  · obtain ⟨hfiled, hkeeps⟩ := updateKeychainWithUser_keeps h hk ref f
    split
    · have hfile := gotToken_ok_sameFile (a.updateKeychainWithUser ref f).2 ref c f
      exact ⟨hfile.filed hfiled, hfile.keeps.mpr hkeeps⟩
    · next e he =>
      cases c with
      | mail m =>
        have hfile : SameFile (a.updateKeychainWithUser ref f).2
          ((a.updateKeychainWithUser ref f).2.gotToken ref (.mail m)
            (.error FIRAuthErrorCodeKeychainError) f) := .of_users rfl rfl rfl rfl
        exact ⟨hfile.filed hfiled, hfile.keeps.mpr hkeeps⟩
      | auth call k =>
        obtain ⟨hu, -⟩ | ⟨hcur, -⟩ := a.updateKeychainWithUser_cases ref f
        · rw [hu] at he
          cases he
        · exact absurd hcur hr.ne_current
  · have hfile := gotToken_ok_sameFile a ref c f
    exact ⟨hfile.filed h, hfile.keeps.mpr hk⟩

end Callbacks

end FIRAuth

end WhichStream.Firebase
