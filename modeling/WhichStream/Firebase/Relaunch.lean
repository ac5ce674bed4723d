import WhichStream.Firebase.Persistence

/-!
When quitting and launching again restores the session: exactly in the runs that no event
makes the keychain forget, or remember too long.
-/

namespace WhichStream.Firebase

open EventMachine KeyedArchives

namespace FIRAuth

variable {a b : FIRAuth} {ref : Ref} {c : Completion}

section Steps

theorem setUser_sameFile (auth : FIRAuth) (ref : Ref) (user : FIRUser Completion)
    (h : auth.currentUser = some ref → user.identity = (auth.users ref).identity ∧
      ((auth.users ref).restorable = true → user.restorable = true)) :
    SameFile auth (auth.setUser ref user) := by
  refine ⟨rfl, rfl, rfl, ?_⟩
  intro r hr
  by_cases hne : r = ref
  · rw [hne, setUser_self]
    exact h (hne ▸ hr)
  · rw [auth.setUser_of_ne user hne]
    exact ⟨rfl, id⟩

theorem setTokenService_sameFile (auth : FIRAuth) (ref : Ref) (s : FIRSecureTokenService Completion)
    (h : (auth.users ref).tokenService.refreshToken.isSome = true → s.refreshToken.isSome = true) :
    SameFile auth (auth.setTokenService ref s) := by
  refine auth.setUser_sameFile ref _ (fun _ => ⟨rfl, ?_⟩)
  unfold FIRUser.restorable
  rw [Bool.and_eq_true, Bool.and_eq_true]
  exact And.imp_right h

theorem answered_sameFile {m : FIRAuth} {r : Request} (hm : a.answered r = some m) :
    SameFile a m ∧ m.users = a.users ∧ m.taggedPointer = a.taggedPointer := by
  unfold answered at hm
  split_ifs at hm
  obtain rfl := Option.some.inj hm
  exact ⟨.of_users rfl rfl rfl rfl, rfl, rfl⟩

theorem signInWithEmail_sameFile (auth : FIRAuth) (call : Call) (email password : Text) :
    SameFile auth (auth.signInWithEmail call email password) := by
  unfold signInWithEmail
  cases call with
  | signIn =>
    dsimp only
    split_ifs
    · exact .of_users rfl rfl rfl rfl
    · exact .of_users rfl rfl rfl rfl
  | createUser =>
    dsimp only
    split_ifs
    · exact .of_users rfl rfl rfl rfl
    · exact .of_users rfl rfl rfl rfl
    · exact .of_users rfl rfl rfl rfl

theorem retrieveUser_sameFile (h : Retrieving none a) (call : Call) (k : ℕ) (t : IssuedTokens) :
    SameFile a (a.retrieveUser call k t) := by
  refine ⟨rfl, rfl, rfl, ?_⟩
  intro r hr
  have hne : r ≠ a.allocated := (h.current r hr).ne
  have huser : (a.retrieveUser call k t).users r = a.users r := by
    unfold FIRAuth.retrieveUser internalGetToken
    rw [setTokenService_of_ne _ _ hne]
    exact a.setUser_of_ne _ hne
  rw [huser]
  exact ⟨rfl, id⟩

/-- The events after which a relaunch does not find the session: a sign-out that leaves a
legacy item, one that is forced on a keychain that keeps its item, and the sign-in of a user
that cannot be restored. -/
def Forgets (auth : FIRAuth) : FIRAuthEvent → Prop
  | .signOut f => auth.currentUser ≠ none ∧ f.save = none ∧ auth.Lingers f
  | .requestCompleted ref (.error e) f =>
    auth.Revokes ref (some e) ∧ f.save ≠ none ∨
      (auth.Revokes ref (some e) ∨
        ∃ c rest, (auth.users ref).tokenService.callbacks = c :: rest ∧ auth.Clears c f) ∧
      auth.Lingers f
  | .gotAccountInfo call k _ (.error _) f => auth.Clears (.auth call k) f ∧ auth.Lingers f
  | .gotAccountInfo _ _ ref (.ok account) f =>
    f.save = none ∧
      (account.localID = none ∨ (auth.users ref).tokenService.refreshToken = none)
  | .gotOOBConfirmationCode _ ref error f =>
    auth.Revokes ref error ∧ (f.save ≠ none ∨ auth.Lingers f)
  | _ => False

theorem keeps_step {e : FIRAuthEvent} (hr : Retrieving none a) (h : a.Filed) (hk : a.Keeps)
    (hu : machine.step a e = some b) : b.Filed ∧ (b.Keeps ↔ ¬a.Forgets e) := by
  have hsame : ∀ {b}, SameFile a b → ¬a.Forgets e → b.Filed ∧ (b.Keeps ↔ ¬a.Forgets e) :=
    fun hfile hnot => ⟨hfile.filed h, iff_of_true (hfile.keeps.mpr hk) hnot⟩
  cases e with
  | call call email password =>
    obtain rfl := Option.some.inj hu
    exact hsame (a.signInWithEmail_sameFile call email password) not_false
  | sendEmailVerification ref =>
    have hu : (if ref < a.allocated then some (a.startMail.internalGetToken ref (.mail a.mails))
      else none) = some b := hu
    split_ifs at hu
    obtain rfl := Option.some.inj hu
    have hstart : SameFile a a.startMail := .of_users rfl rfl rfl rfl
    exact hsame (hstart.trans (setTokenService_sameFile _ ref _ id)) not_false
  | signOut f =>
    have hu : (if a.currentUser.isNone then some a
      else some (a.updateCurrentUser none false true f).2) = some b := hu
    split_ifs at hu with hnone
    · obtain rfl := Option.some.inj hu
      refine hsame (.of_users rfl rfl rfl rfl) ?_
      rintro ⟨hcur, -⟩
      exact hcur (Option.isNone_iff_eq_none.mp hnone)
    · obtain rfl := Option.some.inj hu
      have hupdated := a.updateCurrentUser_cases none false f
      generalize a.updateCurrentUser none false true f = r at hupdated
      cases hupdated with
      | same hcur => exact hsame a.possiblyPost_sameFile (fun hn => hn.1 hcur.symm)
      | saved hcur hf =>
        obtain ⟨-, hfiled, hkeeps⟩ := removed_keeps h f
        refine ⟨hfiled, hkeeps.trans (not_congr ?_)⟩
        exact ⟨fun hl => ⟨hcur.symm, hf, hl⟩, fun hl => hl.2.2⟩
      | forced hcur hf hforce => cases hforce
      | failed hcur hf hforce => exact hsame (.of_users rfl rfl rfl rfl) (fun hn => hf hn.2.1)
  | tokens call k result =>
    obtain ⟨m, hm, rfl⟩ := Option.map_eq_some_iff.mp hu
    have hanswered := (answered_sameFile hm).1
    refine hsame (hanswered.trans ?_) not_false
    cases result with
    | error e => exact m.callInMainThread_sameFile ..
    | ok t => exact retrieveUser_sameFile (hr.answered hm (fun _ => rfl)) call k t
  | runTask ref now =>
    obtain ⟨⟨outcome, s⟩, hrun, rfl⟩ := Option.map_eq_some_iff.mp hu
    obtain ⟨htokens, hcases⟩ := FIRSecureTokenService.runTask_cases hrun
    have hrefresh : s.refreshToken = (a.users ref).tokenService.refreshToken :=
      congrArg (fun t => t.2.2) htokens
    have hservice : SameFile a (a.setTokenService ref s) :=
      a.setTokenService_sameFile ref s (fun hs => by rw [hrefresh]; exact hs)
    obtain ⟨c, rfl, -, -⟩ | ⟨rfl, -⟩ := hcases
    · exact hsame (hservice.trans (gotToken_ok_sameFile _ ref c _)) not_false
    · exact hsame hservice not_false
  | requestCompleted ref result f =>
    obtain ⟨⟨⟨c, fetched⟩, s⟩, hrun, rfl⟩ := Option.map_eq_some_iff.mp hu
    obtain ⟨htaken, hresult⟩ := FIRSecureTokenService.requestCompleted_cases hrun
    have hservice : SameFile a (a.setTokenService ref s) := a.setTokenService_sameFile ref s
      (FIRSecureTokenService.requestCompleted_refreshToken hrun)
    have hfiled := hservice.filed h
    have hkeeps := hservice.keeps.mpr hk
    obtain ⟨e, rfl, rfl, -⟩ | ⟨response, rfl, rfl, -⟩ := hresult
    · have herror : (⟨none, some e, false⟩ : FetchResult).error = some e := rfl
      obtain ⟨hfiled', hkeeps'⟩ :=
        internalGetTokenCallback_error_keeps hfiled hkeeps herror ref c f
      refine ⟨hfiled', hkeeps'.trans (not_congr ?_)⟩
      have hrevokes : (a.setTokenService ref s).Revokes ref (some e) ↔ a.Revokes ref (some e) := by
        unfold Revokes
        rw [a.setTokenService_sameUserID ref s]
        exact Iff.rfl
      have hclears : (∃ c rest, (a.users ref).tokenService.callbacks = c :: rest ∧ a.Clears c f) ↔
          (a.setTokenService ref s).Clears c f := by
        rw [htaken]
        constructor
        · rintro ⟨c', rest, hc, hclears⟩
          rw [(List.cons.inj hc).1]
          exact hclears
        · exact fun hclears => ⟨c, s.callbacks, rfl, hclears⟩
      rw [hrevokes, ← hclears]
      exact Iff.rfl
    · have hnone : (⟨some response.accessToken, none, decide (s.tokens ≠
        (a.users ref).tokenService.tokens)⟩ : FetchResult).error = none := rfl
      obtain ⟨hfiled', hkeeps'⟩ :=
        internalGetTokenCallback_ok_keeps hfiled hkeeps hnone (hr.taken htaken) f
      exact ⟨hfiled', iff_of_true hkeeps' not_false⟩
  | gotAccountInfo call k ref result f =>
    obtain ⟨m, hm, rfl⟩ := Option.map_eq_some_iff.mp hu
    obtain ⟨hanswered, husers, -⟩ := answered_sameFile hm
    cases result with
    | error e =>
      have hclears : m.Clears (.auth call k) f ↔ a.Clears (.auth call k) f := by
        rw [Clears, hanswered.currentUser, Clears]
      have hlingers : m.Lingers f ↔ a.Lingers f := by
        rw [Lingers, legacyUser, hanswered.keychain, hanswered.userKey, Lingers, legacyUser]
      obtain ⟨hnot, hfile⟩ | ⟨hc, hfiled, hkeeps⟩ :=
        completeSignIn_error_keeps (hanswered.filed h) call k e f
      · exact hsame (hanswered.trans hfile) (fun hf => hnot (hclears.mpr hf.1))
      · refine ⟨hfiled, hkeeps.trans (not_congr ?_)⟩
        rw [hlingers]
        exact ⟨fun hl => ⟨hclears.mp hc, hl⟩, And.right⟩
    | ok account =>
      have hretrieving : Retrieving (some ref) m := by
        apply hr.answered hm
        intro other
        simp only [Request.looksUp, decide_eq_true_eq, holds, Option.some.injEq]
      have hlooked : SameFile m (m.lookedUp ref account) :=
        m.setUser_sameFile ref _ (fun hcur => absurd hcur hretrieving.ne_current)
      have hfile := hanswered.trans hlooked
      obtain ⟨hfiled, hkeeps⟩ := completeSignIn_ok_keeps (hfile.filed h) (hfile.keeps.mpr hk)
        (hlooked.currentUser ▸ hretrieving.ne_current) call k f
      refine ⟨hfiled, hkeeps.trans (not_congr (and_congr Iff.rfl ?_))⟩
      have hrestorable : ((m.lookedUp ref account).users ref).restorable =
          (account.localID.isSome && (a.users ref).tokenService.refreshToken.isSome) := by
        rw [← husers, lookedUp, setUser_self]
        rfl
      rw [hrestorable, Bool.and_eq_false_iff, Option.isSome_eq_false_iff, Option.isSome_eq_false_iff,
        Option.isNone_iff_eq_none, Option.isNone_iff_eq_none]
  | gotOOBConfirmationCode k ref error f =>
    obtain ⟨m, hm, rfl⟩ := Option.map_eq_some_iff.mp hu
    obtain ⟨hanswered, husers, htagged⟩ := answered_sameFile hm
    have hrevokes : m.Revokes ref error ↔ a.Revokes ref error := by
      rw [Revokes, sameUserID, husers, hanswered.currentUser, htagged, Revokes, sameUserID]
    have hlingers : m.Lingers f ↔ a.Lingers f := by
      rw [Lingers, legacyUser, hanswered.keychain, hanswered.userKey, Lingers, legacyUser]
    have hsent : SameFile (m.signOutIfTokenIsInvalid ref error f)
      ((m.signOutIfTokenIsInvalid ref error f).callInMainThreadWithError k error) :=
        .of_users rfl rfl rfl rfl
    obtain ⟨hnot, hfile⟩ | ⟨hrev, -, hfiled, hkeeps⟩ := signOutIfTokenIsInvalid_keeps
      (hanswered.filed h) (hanswered.keeps.mpr hk) ref error f
    · exact hsame ((hanswered.trans hfile).trans hsent) (fun hf => hnot (hrevokes.mpr hf.1))
    · refine ⟨hsent.filed hfiled, hsent.keeps.trans (hkeeps.trans (not_congr ?_))⟩
      rw [hlingers]
      exact ⟨fun hl => ⟨hrevokes.mp hrev, hl⟩, And.right⟩
  | main =>
    have hu : a.step .main = some b := hu
    unfold step at hu
    dsimp only at hu
    split at hu
    · cases hu
    · obtain rfl := Option.some.inj hu
      exact hsame (.of_users rfl rfl rfl rfl) not_false

end Steps

section Runs

variable {keychain : FIRAuthKeychain Archive} {reads : FIRAuthKeychain.ReadFaults}

/-- In a run from a launch that could read its keychain, a relaunch finds the session of
the moment, whenever it comes, exactly if no event of the run forgets it. -/
theorem relaunch_exact (firebaseAppName : String) (taggedPointer : String → Bool)
    (honce : (keychain.hits (FIRAuthKeychain.legacyGenericPasswordQuery
      (firebaseAppName ++ "_firebase_user"))).length ≤ 1)
    (hreads : reads.Succeed) (es : List FIRAuthEvent) :
    let start := launch firebaseAppName taggedPointer keychain.relaunch reads
    machine.Throughout Survives start es ↔
      machine.Along (fun _ auth e => ¬auth.Forgets e) start es := by
  obtain ⟨hfiled, hkeeps⟩ := filed_launch firebaseAppName taggedPointer honce hreads
  apply Machine.throughout_iff_along_of_good
    (I := fun _ auth => Retrieving none auth ∧ auth.Filed)
  · exact ⟨.launch firebaseAppName taggedPointer keychain.relaunch reads, hfiled⟩
  · exact (survives_iff _ hfiled).mpr hkeeps
  · rintro before t e u ⟨hr, hf⟩ hs hu
    obtain ⟨hf', hexact⟩ := keeps_step hr hf ((t.survives_iff hf).mp hs) hu
    exact ⟨⟨hr.step hu, hf'⟩, (u.survives_iff hf').trans hexact⟩

/-- A sign-out is undone by the next launch when the item of an earlier version could not be
deleted as it was read. -/
theorem relaunch_exact_legacy : ∃ keychain : FIRAuthKeychain Archive,
    ∃ reads : FIRAuthKeychain.ReadFaults,
    ¬machine.Throughout Survives (launch "app" (fun _ => false) keychain.relaunch reads)
      [.signOut ⟨none, none⟩] := by
  let user : FIRUser Completion :=
    { FIRUser.initWithTokenService (.initWithTokens none none (some "refresh")) with
      userID := some "uid" }
  let keychain : FIRAuthKeychain Archive := ⟨[⟨"", "app_firebase_user", user.encodeWithCoder⟩],
    "auth", fun _ => false, List.nodup_singleton _⟩
  let reads : FIRAuthKeychain.ReadFaults := ⟨none, none, none, some ⟨-1, by decide⟩⟩
  have honce : (keychain.hits (FIRAuthKeychain.legacyGenericPasswordQuery
      ("app" ++ "_firebase_user"))).length ≤ 1 := by decide +kernel
  refine ⟨keychain, reads, ?_⟩
  intro hsurvives
  have halong := (relaunch_exact "app" (fun _ => false) honce ⟨rfl, rfl, rfl⟩ _).mp hsurvives
  have hstep : (machine.step (launch "app" (fun _ => false) keychain.relaunch reads)
      (.signOut ⟨none, none⟩)).isSome := by decide +kernel
  obtain ⟨u, hu⟩ := Option.isSome_iff_exists.mp hstep
  refine halong [] _ List.prefix_rfl _ u rfl hu ⟨?_, rfl, Or.inl ?_, ?_⟩
  · decide +kernel
  · decide +kernel
  · decide +kernel

end Runs

end FIRAuth

end WhichStream.Firebase
