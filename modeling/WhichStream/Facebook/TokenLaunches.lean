import WhichStream.Facebook.TokenCache
import WhichStream.Library.StampedCell

/-!
Launches of the app with the Facebook token of the one before: which token the next launch
starts with, whatever the keychain refuses.
-/

namespace WhichStream.Facebook

open EventMachine StampedCells
open FBSDKAccessTokenCacheV3 (accessTokenForV3Dictionary)

namespace TokenCache

variable (c : TokenCache) {token : Option DatedAccessToken} {t : DatedAccessToken} {UUID : String}
  {calls : KeychainCalls} {now later : NSDate}

def cell : Cell String DatedAccessToken :=
  ⟨c.v4.bind fun d => d.tokenUUID.bind fun uuid => d.tokenEncoded.map fun token => (uuid, token),
    c.defaultsUUID⟩

def stored : Option DatedAccessToken := c.cell.value

def oldToken (now : NSDate) (calls : KeychainCalls) : Option DatedAccessToken :=
  (accessTokenForV3Dictionary now (if calls.readV3_21 then c.v3_21 else none)).or
    ((accessTokenForV3Dictionary now (if calls.readV3_17 then c.v3_17 else none)).or
      (accessTokenForV3Dictionary now c.v3))

theorem cell_clearCache :
    (FBSDKAccessTokenCacheV4.clearCache c calls).cell = c.cell.clear calls.clearV4 := by
  unfold FBSDKAccessTokenCacheV4.clearCache cell Cell.clear
  cases calls.clearV4 <;> rfl

theorem cell_cacheAccessToken : (FBSDKAccessTokenCacheV4.cacheAccessToken c (some t) UUID calls).cell =
    c.cell.put UUID t calls.writeV4 := by
  unfold FBSDKAccessTokenCacheV4.cacheAccessToken cell Cell.put
  cases calls.writeV4 <;> rfl

/-- A new UUID is made only where none is kept. -/
def Unused (UUID : String) : Prop := c.cell.stamp = none → ∀ p ∈ c.cell.item, p.1 ≠ UUID

theorem cached_stored (h : c.Unused UUID) :
    (FBSDKAccessTokenCacheV4.cacheAccessToken c (some t) UUID calls).stored =
      if calls.writeV4 then some t else c.stored := by
  rw [stored, cell_cacheAccessToken, Cell.value_put _ h, stored]

theorem cached_unused :
    (FBSDKAccessTokenCacheV4.cacheAccessToken c (some t) UUID calls).Unused UUID := by
  intro hstamp
  rw [cell_cacheAccessToken] at hstamp
  cases hstamp

theorem fetch_v4 : FBSDKAccessTokenCacheV4.fetchAccessToken c calls =
    if calls.readV4 = true ∧ c.stored.isSome then (c.stored, c)
    else (none, FBSDKAccessTokenCacheV4.clearCache c calls) := by
  unfold FBSDKAccessTokenCacheV4.fetchAccessToken stored Cell.value cell
  cases hread : calls.readV4 with
  | false => simp
  | true =>
    cases hitem : c.v4 with
    | none => simp
    | some d =>
      cases huuid : d.tokenUUID with
      | none => simp [huuid]
      | some uuid =>
        cases htoken : d.tokenEncoded with
        | none => simp [huuid, htoken]
        | some token => by_cases hsame : c.defaultsUUID = some uuid <;> simp [huuid, htoken, hsame]

theorem accessToken_later {d : Option TokenInformation} (h : accessTokenForV3Dictionary now d = none)
    (hle : now ≤ later) : accessTokenForV3Dictionary later d = none := by
  unfold accessTokenForV3Dictionary at h ⊢
  cases d with
  | none => rfl
  | some d =>
    cases htoken : d.token with
    | none => simp [htoken]
    | some tokenString =>
      by_cases hempty : tokenString = ""
      · simp [htoken, hempty]
      · cases hdate : d.expirationDate with
        | none => simp [htoken, hempty, hdate] at h
        | some expirationDate =>
          have hexpired : expirationDate < now := by simpa [htoken, hempty, hdate] using h
          simp [htoken, hdate, hexpired.trans_le hle]

/-- What may happen to the items of earlier versions. -/
structure Leaves (c c' : TokenCache) : Prop where
  cell : c'.cell = c.cell
  tryDeprecatedCaches : c'.tryDeprecatedCaches = c.tryDeprecatedCaches
  v3_21 : c'.v3_21 = c.v3_21 ∨ c'.v3_21 = none
  v3_17 : c'.v3_17 = c.v3_17 ∨ c'.v3_17 = none
  v3 : c'.v3 = c.v3 ∨ c'.v3 = none

namespace Leaves

variable {c c' c'' : TokenCache}

theorem refl (c : TokenCache) : Leaves c c := ⟨rfl, rfl, Or.inl rfl, Or.inl rfl, Or.inl rfl⟩

theorem trans (h : Leaves c c') (h' : Leaves c' c'') : Leaves c c'' where
  cell := h'.cell.trans h.cell
  tryDeprecatedCaches := h'.tryDeprecatedCaches.trans h.tryDeprecatedCaches
  v3_21 := h'.v3_21.elim (fun heq => by rw [heq]; exact h.v3_21) Or.inr
  v3_17 := h'.v3_17.elim (fun heq => by rw [heq]; exact h.v3_17) Or.inr
  v3 := h'.v3.elim (fun heq => by rw [heq]; exact h.v3) Or.inr

theorem stored (h : Leaves c c') : c'.stored = c.stored := by
  rw [TokenCache.stored, h.cell, TokenCache.stored]

theorem clearCache (c : TokenCache) (cache : DeprecatedCache) (calls : KeychainCalls) :
    Leaves c (cache.clearCache c calls) := by
  cases cache with
  | V3_21 =>
    refine ⟨rfl, rfl, ?_, Or.inl rfl, Or.inl rfl⟩
    cases h : calls.clearV3_21 <;>
      simp [DeprecatedCache.clearCache, FBSDKAccessTokenCacheV3_21.clearCache, h]
  | V3_17 =>
    refine ⟨rfl, rfl, Or.inl rfl, ?_, Or.inl rfl⟩
    cases h : calls.clearV3_17 <;>
      simp [DeprecatedCache.clearCache, FBSDKAccessTokenCacheV3_17.clearCache, h]
  | V3 => exact ⟨rfl, rfl, Or.inl rfl, Or.inl rfl, Or.inr rfl⟩

theorem fetchAccessToken (c : TokenCache) (cache : DeprecatedCache) (now : NSDate)
    (calls : KeychainCalls) : Leaves c (cache.fetchAccessToken c now calls).2 := by
  cases cache with
  | V3_21 =>
    dsimp only [DeprecatedCache.fetchAccessToken, FBSDKAccessTokenCacheV3_21.fetchAccessToken]
    generalize c.sameUUID _ = same
    cases same with
    | true => exact .refl c
    | false => exact clearCache c .V3_21 calls
  | V3_17 =>
    dsimp only [DeprecatedCache.fetchAccessToken, FBSDKAccessTokenCacheV3_17.fetchAccessToken]
    generalize c.sameUUID _ = same
    cases same with
    | true => exact .refl c
    | false => exact clearCache c .V3_17 calls
  | V3 => exact .refl c

theorem fetchOldToken (caches : List DeprecatedCache) (c : TokenCache) :
    Leaves c (FBSDKAccessTokenCache.fetchOldToken now calls caches c).2 := by
  induction caches generalizing c with
  | nil => exact .refl c
  | cons cache caches ih =>
    have hfetch := fetchAccessToken c cache now calls
    unfold FBSDKAccessTokenCache.fetchOldToken
    split
    · next oldToken c' heq =>
      rw [heq] at hfetch
      exact hfetch.trans (clearCache c' cache calls)
    · next c' heq =>
      rw [heq] at hfetch
      exact hfetch.trans (ih c')

theorem clearCaches (caches : List DeprecatedCache) (c : TokenCache) :
    Leaves c (caches.foldl (fun c cache => cache.clearCache c calls) c) := by
  induction caches generalizing c with
  | nil => exact .refl c
  | cons cache caches ih => exact (clearCache c cache calls).trans (ih _)

end Leaves

theorem fetchOldToken_cons (cache : DeprecatedCache) (caches : List DeprecatedCache) :
    (FBSDKAccessTokenCache.fetchOldToken now calls (cache :: caches) c).1 =
      (cache.fetchAccessToken c now calls).1.or (FBSDKAccessTokenCache.fetchOldToken now calls caches
        (cache.fetchAccessToken c now calls).2).1 := by
  rw [FBSDKAccessTokenCache.fetchOldToken]
  generalize cache.fetchAccessToken c now calls = fetched
  obtain ⟨token, c'⟩ := fetched
  cases token <;> rfl

/-- The token of the first of the earlier caches that has a valid one. -/
theorem fetchOldToken_token : (FBSDKAccessTokenCache.fetchOldToken now calls
    FBSDKAccessTokenCache.deprecatedCacheClasses c).1 = c.oldToken now calls := by
  unfold FBSDKAccessTokenCache.deprecatedCacheClasses
  rw [fetchOldToken_cons, fetchOldToken_cons, fetchOldToken_cons]
  dsimp only [DeprecatedCache.fetchAccessToken, FBSDKAccessTokenCacheV3_21.fetchAccessToken,
    FBSDKAccessTokenCacheV3_17.fetchAccessToken, FBSDKAccessTokenCacheV3.fetchAccessToken]
  generalize c.sameUUID _ = same
  have hothers : ∀ c' : TokenCache, (if same then c else FBSDKAccessTokenCacheV3_21.clearCache c calls) = c' →
      c'.v3_17 = c.v3_17 ∧ c'.v3 = c.v3 := by
    rintro c' rfl
    cases same <;> exact ⟨rfl, rfl⟩
  generalize (if same = true then c else FBSDKAccessTokenCacheV3_21.clearCache c calls) = c' at hothers ⊢
  obtain ⟨h17, h3⟩ := hothers c' rfl
  generalize c'.sameUUID _ = same'
  have hlast : (if same' = true then c' else FBSDKAccessTokenCacheV3_17.clearCache c' calls).v3 = c.v3 := by
    cases same' <;> exact h3
  rw [hlast, h17, FBSDKAccessTokenCache.fetchOldToken, Option.or_none]
  rfl

theorem accessToken_none : accessTokenForV3Dictionary now none = none := rfl

theorem oldToken_eq_none : c.oldToken now calls = none ↔
    (calls.readV3_21 = true → accessTokenForV3Dictionary now c.v3_21 = none) ∧
      (calls.readV3_17 = true → accessTokenForV3Dictionary now c.v3_17 = none) ∧
        accessTokenForV3Dictionary now c.v3 = none := by
  unfold oldToken
  cases calls.readV3_21 <;> cases calls.readV3_17 <;>
    simp [Option.or_eq_none_iff, accessToken_none]

theorem oldToken_later (h : c.oldToken now calls = none) (hle : now ≤ later) :
    c.oldToken later calls = none := by
  rw [oldToken_eq_none] at h ⊢
  obtain ⟨h21, h17, h3⟩ := h
  exact ⟨fun hread => accessToken_later (h21 hread) hle, fun hread => accessToken_later (h17 hread) hle,
    accessToken_later h3 hle⟩

theorem Leaves.oldToken {c c' : TokenCache} (h : Leaves c c') (hnone : c.oldToken now calls = none) :
    c'.oldToken now calls = none := by
  have hkept : ∀ {d d' : Option TokenInformation}, d' = d ∨ d' = none →
      accessTokenForV3Dictionary now d = none → accessTokenForV3Dictionary now d' = none := by
    rintro d d' (rfl | rfl) hd
    · exact hd
    · rfl
  rw [oldToken_eq_none] at hnone ⊢
  obtain ⟨h21, h17, h3⟩ := hnone
  exact ⟨fun hread => hkept h.v3_21 (h21 hread), fun hread => hkept h.v3_17 (h17 hread), hkept h.v3 h3⟩

-- What a launch finds in the earlier caches, and what it leaves there.
def takenOver (now : NSDate) (calls : KeychainCalls) : Option DatedAccessToken × TokenCache :=
  FBSDKAccessTokenCache.fetchOldToken now calls FBSDKAccessTokenCache.deprecatedCacheClasses
    { FBSDKAccessTokenCacheV4.clearCache c calls with tryDeprecatedCaches := false }

theorem takenOver_token : (c.takenOver now calls).1 = c.oldToken now calls := fetchOldToken_token _

theorem takenOver_leaves : Leaves
    { FBSDKAccessTokenCacheV4.clearCache c calls with tryDeprecatedCaches := false }
    (c.takenOver now calls).2 := .fetchOldToken _ _

theorem takenOver_stored (now : NSDate) (calls : KeychainCalls) :
    (c.takenOver now calls).2.stored = none := by
  have hcell : (c.takenOver now calls).2.cell = c.cell.clear calls.clearV4 :=
    c.takenOver_leaves.cell.trans c.cell_clearCache
  rw [stored, hcell, Cell.value_clear]

theorem takenOver_unused (now : NSDate) (calls : KeychainCalls) (h : ∀ p ∈ c.cell.item, p.1 ≠ UUID) :
    (c.takenOver now calls).2.Unused UUID := by
  intro _ p hp
  have hcell : (c.takenOver now calls).2.cell = c.cell.clear calls.clearV4 :=
    c.takenOver_leaves.cell.trans c.cell_clearCache
  rw [hcell] at hp
  unfold Cell.clear at hp
  cases hclear : calls.clearV4 <;> simp [hclear] at hp
  exact h p hp

theorem cacheAccessToken_tried (h : c.tryDeprecatedCaches = false) :
    FBSDKAccessTokenCache.cacheAccessToken c token UUID calls =
      FBSDKAccessTokenCacheV4.cacheAccessToken c token UUID calls := by
  have hkept : (FBSDKAccessTokenCacheV4.cacheAccessToken c token UUID calls).tryDeprecatedCaches =
      false := by
    cases token <;> exact h
  unfold FBSDKAccessTokenCache.cacheAccessToken
  simp [hkept]

theorem cacheAccessToken_stored (h : c.Unused UUID) :
    (FBSDKAccessTokenCache.cacheAccessToken c (some t) UUID calls).stored =
      if calls.writeV4 then some t else c.stored := by
  rw [← c.cached_stored h]
  unfold FBSDKAccessTokenCache.cacheAccessToken
  dsimp only
  split_ifs
  · exact (Leaves.clearCaches _ _).stored
  · rfl

theorem cacheAccessToken_try :
    (FBSDKAccessTokenCache.cacheAccessToken c token UUID calls).tryDeprecatedCaches = false := by
  unfold FBSDKAccessTokenCache.cacheAccessToken
  dsimp only
  split_ifs with htry
  · exact (Leaves.clearCaches _ _).tryDeprecatedCaches
  · exact eq_false_of_ne_true htry

theorem cacheAccessToken_within {used : Set String} (token : Option DatedAccessToken) (UUID : String)
    (calls : KeychainCalls) (h : c.cell.Within used) :
    (FBSDKAccessTokenCache.cacheAccessToken c token UUID calls).cell.Within (insert UUID used) := by
  have hcached : (FBSDKAccessTokenCacheV4.cacheAccessToken c token UUID calls).cell.Within
      (insert UUID used) := by
    cases token with
    | none =>
      have hclear : (FBSDKAccessTokenCacheV4.clearCache c calls).cell.Within used := by
        rw [cell_clearCache]
        exact h.clear
      exact hclear.mono (Set.subset_insert UUID used)
    | some t =>
      rw [cell_cacheAccessToken]
      exact h.put
  unfold FBSDKAccessTokenCache.cacheAccessToken
  dsimp only
  split_ifs
  · rw [(Leaves.clearCaches _ _).cell]
    exact hcached
  · exact hcached

theorem takenOver_within {used : Set String} (now : NSDate) (h : c.cell.Within used) :
    (c.takenOver now calls).2.cell.Within used := by
  have hcell : (c.takenOver now calls).2.cell = c.cell.clear calls.clearV4 :=
    c.takenOver_leaves.cell.trans c.cell_clearCache
  rw [hcell]
  exact h.clear

end TokenCache

namespace AccessTokens

variable {s u : AccessTokens} {t : DatedAccessToken} {reinstalled : Bool} {now later : NSDate}
  {UUID : String} {fetching setting : KeychainCalls}

theorem fetchAccessToken_stored (c : TokenCache) (hread : fetching.readV4 = true)
    (hstored : c.stored = some t) :
    FBSDKAccessTokenCache.fetchAccessToken c now UUID fetching = (some t, c) := by
  rw [FBSDKAccessTokenCache.fetchAccessToken, c.fetch_v4, if_pos ⟨hread, by simp [hstored]⟩, hstored]

theorem fetchAccessToken_old (c : TokenCache) (now : NSDate) (UUID : String)
    (htry : c.tryDeprecatedCaches = true) (hfetch : ¬(fetching.readV4 = true ∧ c.stored.isSome)) :
    FBSDKAccessTokenCache.fetchAccessToken c now UUID fetching =
      match c.takenOver now fetching with
      | (some t, left) => (some t, FBSDKAccessTokenCacheV4.cacheAccessToken left (some t) UUID fetching)
      | (none, left) => (none, left) := by
  have htried : (FBSDKAccessTokenCacheV4.clearCache c fetching).tryDeprecatedCaches = true := htry
  have hleft : (c.takenOver now fetching).2.tryDeprecatedCaches = false :=
    c.takenOver_leaves.tryDeprecatedCaches
  rw [FBSDKAccessTokenCache.fetchAccessToken, c.fetch_v4, if_neg hfetch]
  dsimp only
  rw [if_pos htried]
  change (match c.takenOver now fetching with
    | (some oldToken, c) => (some oldToken, FBSDKAccessTokenCache.cacheAccessToken c (some oldToken)
        UUID fetching)
    | (none, c) => (none, c)) = _
  generalize c.takenOver now fetching = old at hleft
  obtain ⟨token, left⟩ := old
  cases token with
  | none => rfl
  | some t => exact congrArg (Prod.mk (some t)) (left.cacheAccessToken_tried hleft)

theorem didFinishLaunching_some {c : TokenCache} (hnone : s.currentAccessToken = none)
    (hfetch : FBSDKAccessTokenCache.fetchAccessToken s.cache now UUID fetching = (some t, c)) :
    s.didFinishLaunching now UUID fetching setting = { s with
      currentAccessToken := some ⟨0, t⟩
      cache := FBSDKAccessTokenCache.cacheAccessToken c (some t) UUID setting } := by
  unfold didFinishLaunching setCurrentAccessToken
  simp [hfetch, hnone]

theorem didFinishLaunching_none {c : TokenCache} (hnone : s.currentAccessToken = none)
    (hfetch : FBSDKAccessTokenCache.fetchAccessToken s.cache now UUID fetching = (none, c)) :
    s.didFinishLaunching now UUID fetching setting = { s with cache := c } := by
  unfold didFinishLaunching setCurrentAccessToken
  simp [hfetch, hnone]

theorem didFinishLaunching_current (hnone : s.currentAccessToken = none)
    (htry : s.cache.tryDeprecatedCaches = true) :
    (s.didFinishLaunching now UUID fetching setting).current =
      if fetching.readV4 = true ∧ s.cache.stored.isSome then s.cache.stored
      else (s.cache.takenOver now fetching).1 := by
  split_ifs with hread
  · obtain ⟨t, hstored⟩ := Option.isSome_iff_exists.mp hread.2
    rw [didFinishLaunching_some hnone (fetchAccessToken_stored s.cache hread.1 hstored), hstored]
    rfl
  · have hfetch := fetchAccessToken_old s.cache now UUID htry hread
    generalize s.cache.takenOver now fetching = old at hfetch
    obtain ⟨token, left⟩ := old
    cases token with
    | none =>
      rw [didFinishLaunching_none hnone hfetch]
      exact congrArg (Option.map TokenObject.token) hnone
    | some t =>
      rw [didFinishLaunching_some hnone hfetch]
      rfl

theorem didFinishLaunching_stored (hnone : s.currentAccessToken = none) (hunused : s.cache.Unused UUID)
    (hread : fetching.readV4 = true) (hstored : s.cache.stored = some t) :
    (s.didFinishLaunching now UUID fetching setting).cache.stored = some t := by
  rw [didFinishLaunching_some hnone (fetchAccessToken_stored s.cache hread hstored)]
  dsimp only
  rw [s.cache.cacheAccessToken_stored hunused, hstored, ite_self]

/-- What is taken over is stored unless the keychain refuses it twice. -/
theorem didFinishLaunching_old (hnone : s.currentAccessToken = none)
    (hnew : ∀ p ∈ s.cache.cell.item, p.1 ≠ UUID) (htry : s.cache.tryDeprecatedCaches = true)
    (hread : ¬(fetching.readV4 = true ∧ s.cache.stored.isSome)) :
    let launched := s.didFinishLaunching now UUID fetching setting
    let old := s.cache.takenOver now fetching
    launched.cache.stored = (if fetching.writeV4 || setting.writeV4 then old.1 else none) ∧
      ∀ later, launched.cache.oldToken later .succeed = old.2.oldToken later .succeed := by
  have hstored := s.cache.takenOver_stored now fetching
  have hunused := s.cache.takenOver_unused now fetching hnew
  have hleft : (s.cache.takenOver now fetching).2.tryDeprecatedCaches = false :=
    s.cache.takenOver_leaves.tryDeprecatedCaches
  have hfetch := fetchAccessToken_old s.cache now UUID htry hread
  dsimp only
  generalize s.cache.takenOver now fetching = old at hstored hunused hleft hfetch ⊢
  obtain ⟨token, left⟩ := old
  cases token with
  | none =>
    rw [didFinishLaunching_none hnone hfetch]
    simp [hstored]
  | some t =>
    have hcached : (FBSDKAccessTokenCacheV4.cacheAccessToken left (some t) UUID
        fetching).tryDeprecatedCaches = false := hleft
    rw [didFinishLaunching_some hnone hfetch]
    dsimp only
    rw [TokenCache.cacheAccessToken_tried _ hcached]
    refine ⟨?_, fun later => rfl⟩
    rw [TokenCache.cached_stored _ (left.cached_unused), left.cached_stored hunused, hstored]
    cases fetching.writeV4 <;> cases setting.writeV4 <;> rfl

/-- However the app is ended, the next launch that nothing hinders starts with its token. -/
def Survives (s : AccessTokens) : Prop :=
  ∀ later UUID, s.clock ≤ later →
    (s.launch false later UUID .succeed .succeed).current = s.current

theorem survives_iff : s.Survives ↔
    ∀ later, s.clock ≤ later → (s.cache.stored).or (s.cache.oldToken later .succeed) = s.current := by
  have hlaunch : ∀ later UUID, (s.launch false later UUID .succeed .succeed).current =
      (s.cache.stored).or (s.cache.oldToken later .succeed) := by
    intro later UUID
    unfold launch
    rw [didFinishLaunching_current rfl rfl, TokenCache.takenOver_token]
    have hstored : (s.started false later).cache.stored = s.cache.stored := rfl
    have hold : (s.started false later).cache.oldToken later .succeed =
        s.cache.oldToken later .succeed := rfl
    rw [hstored, hold]
    cases s.cache.stored <;> simp [KeychainCalls.succeed]
  constructor
  · intro h later hle
    rw [← hlaunch later ""]
    exact h later "" hle
  · intro h later UUID hle
    rw [hlaunch]
    exact h later hle

-- The events that the next launch comes to a different token after.
def Forgets (s : AccessTokens) : TokenEvent → Prop
  | .launch reinstalled now _ fetching setting =>
    let c := (s.started reinstalled now).cache
    let old := c.takenOver now fetching
    ¬(fetching.readV4 = true ∧ c.stored.isSome) ∧
      ¬((fetching.writeV4 || setting.writeV4) = true ∧ old.1.isSome) ∧
        ∃ later, now ≤ later ∧ old.2.oldToken later .succeed ≠ old.1
  | .setCurrentAccessToken none _ _ =>
    s.currentAccessToken ≠ none ∧ s.cache.oldToken s.clock .succeed ≠ none
  | .setCurrentAccessToken (some t) _ calls =>
    some t.address ≠ s.currentAccessToken.map TokenObject.address ∧ calls.writeV4 = false ∧
      s.current ≠ some t.token

def Stamped (s : AccessTokens) : Prop := s.cache.cell.Within {UUID | UUID ∈ s.UUIDs}

theorem Stamped.started (h : s.Stamped) : (s.started reinstalled now).Stamped := by
  cases reinstalled with
  | true => exact h.unstamped
  | false => exact h

theorem Stamped.new (h : s.Stamped) (hnew : UUID ∉ s.UUIDs) : ∀ p ∈ s.cache.cell.item, p.1 ≠ UUID := by
  rintro p hp rfl
  exact hnew (h.item p hp)

theorem stamped_mint {c : TokenCache} (h : c.cell.Within (insert UUID {other | other ∈ s.UUIDs})) :
    Stamped ({ s with cache := c }.mint UUID) := by
  apply h.mono
  rintro other (rfl | hother)
  · exact List.mem_cons_self
  · exact List.mem_cons_of_mem _ hother

/-- Once the app is launched, the earlier caches are not tried any more. -/
structure Launched (s : AccessTokens) : Prop where
  tried : s.cache.tryDeprecatedCaches = false
  stamped : s.Stamped

theorem didFinishLaunching_launched (hnone : s.currentAccessToken = none)
    (htry : s.cache.tryDeprecatedCaches = true) (h : s.Stamped) :
    Launched ((s.didFinishLaunching now UUID fetching setting).mint UUID) := by
  by_cases hread : fetching.readV4 = true ∧ s.cache.stored.isSome
  · obtain ⟨t, hstored⟩ := Option.isSome_iff_exists.mp hread.2
    rw [didFinishLaunching_some hnone (fetchAccessToken_stored s.cache hread.1 hstored)]
    exact ⟨TokenCache.cacheAccessToken_try _, stamped_mint (s.cache.cacheAccessToken_within _ UUID _ h)⟩
  · have hfetch := fetchAccessToken_old s.cache now UUID htry hread
    have hleft : (s.cache.takenOver now fetching).2.tryDeprecatedCaches = false :=
      s.cache.takenOver_leaves.tryDeprecatedCaches
    have hwithin : (s.cache.takenOver now fetching).2.cell.Within {other | other ∈ s.UUIDs} :=
      s.cache.takenOver_within now h
    generalize s.cache.takenOver now fetching = old at hfetch hleft hwithin
    obtain ⟨token, left⟩ := old
    cases token with
    | none =>
      rw [didFinishLaunching_none hnone hfetch]
      exact ⟨hleft, stamped_mint (hwithin.mono (Set.subset_insert _ _))⟩
    | some t =>
      rw [didFinishLaunching_some hnone hfetch]
      refine ⟨TokenCache.cacheAccessToken_try _, stamped_mint ?_⟩
      rw [← left.cacheAccessToken_tried hleft]
      have hcached := left.cacheAccessToken_within (some t) UUID fetching hwithin
      have htwice := TokenCache.cacheAccessToken_within _ (some t) UUID setting hcached
      rw [Set.insert_idem] at htwice
      exact htwice

theorem launched_step {e : TokenEvent} (h : s.Launched) (hu : machine.step s e = some u) :
    u.Launched := by
  cases e with
  | launch reinstalled now UUID fetching setting =>
    have hu : (if s.clock ≤ now ∧ UUID ∉ s.UUIDs then
      some ((s.launch reinstalled now UUID fetching setting).mint UUID) else none) = some u := hu
    split_ifs at hu
    obtain rfl := Option.some.inj hu
    exact didFinishLaunching_launched rfl rfl h.stamped.started
  | setCurrentAccessToken token UUID calls =>
    have hu : (if UUID ∉ s.UUIDs then some ((s.setCurrentAccessToken token UUID calls).mint UUID)
      else none) = some u := hu
    split_ifs at hu
    obtain rfl := Option.some.inj hu
    unfold setCurrentAccessToken
    split_ifs
    · exact ⟨h.tried, stamped_mint (h.stamped.mono (Set.subset_insert _ _))⟩
    · exact ⟨TokenCache.cacheAccessToken_try _,
        stamped_mint (s.cache.cacheAccessToken_within _ UUID _ h.stamped)⟩

theorem setCurrentAccessToken_clock (s : AccessTokens) (token : Option TokenObject)
    (calls : KeychainCalls) : (s.setCurrentAccessToken token UUID calls).clock = s.clock := by
  unfold setCurrentAccessToken
  split_ifs <;> rfl

theorem mint_survives (h : s.Survives) : (s.mint UUID).Survives := by
  rw [survives_iff] at h ⊢
  exact h

/-- A launch that reads the stored token keeps it; another one keeps what it takes over if the
keychain takes it once, or if the earlier caches go on giving it. -/
theorem launch_survives (h : s.Stamped) (hnew : UUID ∉ s.UUIDs) :
    ((s.launch reinstalled now UUID fetching setting).mint UUID).Survives ↔
      ¬s.Forgets (.launch reinstalled now UUID fetching setting) := by
  have hstarted : (s.started reinstalled now).Stamped := h.started
  have hunused := hstarted.new hnew
  have hclock : (s.launch reinstalled now UUID fetching setting).clock = now :=
    setCurrentAccessToken_clock _ _ _
  have hcurrent : (s.launch reinstalled now UUID fetching setting).current = _ :=
    didFinishLaunching_current rfl rfl
  rw [survives_iff]
  change (∀ later, (s.launch reinstalled now UUID fetching setting).clock ≤ later →
    ((s.launch reinstalled now UUID fetching setting).cache.stored).or
      ((s.launch reinstalled now UUID fetching setting).cache.oldToken later .succeed) =
        (s.launch reinstalled now UUID fetching setting).current) ↔ _
  rw [hclock, hcurrent]
  unfold Forgets
  by_cases hread : fetching.readV4 = true ∧ (s.started reinstalled now).cache.stored.isSome
  · obtain ⟨t, hstored⟩ := Option.isSome_iff_exists.mp hread.2
    have hlaunched : (s.launch reinstalled now UUID fetching setting).cache.stored = some t :=
      didFinishLaunching_stored rfl (fun _ => hunused) hread.1 hstored
    simp [hlaunched, hstored, hread.1]
  · obtain ⟨hlaunched, hold⟩ : (s.launch reinstalled now UUID fetching setting).cache.stored = _ ∧
        ∀ later, (s.launch reinstalled now UUID fetching setting).cache.oldToken later .succeed = _ :=
      didFinishLaunching_old rfl hunused rfl hread
    rw [if_neg hread, hlaunched]
    simp only [hold, hread, not_false_eq_true, true_and]
    generalize (s.started reinstalled now).cache.takenOver now fetching = old
    obtain ⟨token, left⟩ := old
    cases token with
    | none => simp
    | some t => cases fetching.writeV4 <;> cases setting.writeV4 <;> simp

theorem setCurrentAccessToken_survives (hl : s.Launched) (hs : s.Survives) (hnew : UUID ∉ s.UUIDs)
    (token : Option TokenObject) (calls : KeychainCalls) :
    ((s.setCurrentAccessToken token UUID calls).mint UUID).Survives ↔
      ¬s.Forgets (.setCurrentAccessToken token UUID calls) := by
  unfold setCurrentAccessToken
  split_ifs with hsame
  · refine iff_of_true (mint_survives hs) ?_
    cases token with
    | none =>
      rintro ⟨hcurrent, -⟩
      exact hcurrent (Option.map_eq_none_iff.mp hsame.symm)
    | some t => exact fun hf => hf.1 hsame
  · rw [survives_iff] at hs ⊢
    rw [s.cache.cacheAccessToken_tried hl.tried]
    cases token with
    | none =>
      have hstored : (FBSDKAccessTokenCacheV4.clearCache s.cache calls).stored = none := by
        rw [TokenCache.stored, TokenCache.cell_clearCache, Cell.value_clear]
      have hcurrent : s.currentAccessToken ≠ none := fun hnone => hsame (by rw [hnone])
      change (∀ later, s.clock ≤ later → ((FBSDKAccessTokenCacheV4.clearCache s.cache calls).stored).or
        (s.cache.oldToken later .succeed) = none) ↔ _
      rw [hstored]
      simp only [Option.none_or, Forgets, hcurrent, ne_eq, not_false_eq_true, true_and, not_not]
      constructor
      · exact fun h => h s.clock le_rfl
      · exact fun h later hle => s.cache.oldToken_later h hle
    | some t =>
      have hstored : (FBSDKAccessTokenCacheV4.cacheAccessToken s.cache (some t.token) UUID calls).stored =
          if calls.writeV4 then some t.token else s.cache.stored :=
        s.cache.cached_stored (fun _ => hl.stamped.new hnew)
      change (∀ later, s.clock ≤ later → ((FBSDKAccessTokenCacheV4.cacheAccessToken s.cache
        (some t.token) UUID calls).stored).or (s.cache.oldToken later .succeed) = some t.token) ↔ _
      rw [hstored]
      cases hwrite : calls.writeV4 with
      | true => simp [Forgets, hwrite]
      | false =>
        have haddress : ¬some t.address = s.currentAccessToken.map TokenObject.address := hsame
        simp only [Forgets, hwrite, haddress, ne_eq, not_false_eq_true, true_and, not_not,
          Bool.false_eq_true, if_false]
        constructor
        · exact fun h => (hs s.clock le_rfl).symm.trans (h s.clock le_rfl)
        · exact fun h later hle => (hs later hle).trans h

theorem survives_step {e : TokenEvent} (hl : s.Launched) (hs : s.Survives)
    (hu : machine.step s e = some u) : u.Survives ↔ ¬s.Forgets e := by
  cases e with
  | launch reinstalled now UUID fetching setting =>
    have hu : (if s.clock ≤ now ∧ UUID ∉ s.UUIDs then
      some ((s.launch reinstalled now UUID fetching setting).mint UUID) else none) = some u := hu
    split_ifs at hu with hnew
    obtain rfl := Option.some.inj hu
    exact launch_survives hl.stamped hnew.2
  | setCurrentAccessToken token UUID calls =>
    have hu : (if UUID ∉ s.UUIDs then some ((s.setCurrentAccessToken token UUID calls).mint UUID)
      else none) = some u := hu
    split_ifs at hu with hnew
    obtain rfl := Option.some.inj hu
    exact setCurrentAccessToken_survives hl hs hnew token calls

section Runs

variable (cache : TokenCache) {clock : NSDate}

theorem found_stamped : (found cache clock).Stamped := by
  constructor
  · rintro p hp
    obtain ⟨d, hd, hrest⟩ := Option.bind_eq_some_iff.mp hp
    obtain ⟨uuid, huuid, hmap⟩ := Option.bind_eq_some_iff.mp hrest
    obtain ⟨token, -, rfl⟩ := Option.map_eq_some_iff.mp hmap
    have hd : cache.v4 = some d := hd
    have hmem : cache.v4.bind CachedToken.tokenUUID = some uuid := by
      rw [hd, Option.bind_some, huuid]
    apply List.mem_append_left
    rw [hmem]
    exact List.mem_singleton_self uuid
  · intro uuid huuid
    apply List.mem_append_right
    rw [Option.mem_toList]
    exact huuid

/-- Whatever the device holds, a first launch that nothing hinders is one to be launched after. -/
theorem launch_found_survives {now : NSDate} (hnew : UUID ∉ (found cache clock).UUIDs) :
    (((found cache clock).launch false now UUID .succeed .succeed).mint UUID).Survives := by
  rw [launch_survives (found_stamped cache) hnew]
  rintro ⟨-, hwrite, later, hle, hne⟩
  set c := ((found cache clock).started false now).cache
  have hnone : (c.takenOver now .succeed).1 = none := by
    cases htoken : (c.takenOver now .succeed).1 with
    | none => rfl
    | some t => exact absurd ⟨rfl, by rw [htoken]; rfl⟩ hwrite
  have hold : c.oldToken now .succeed = none := c.takenOver_token ▸ hnone
  have hleft : (c.takenOver now .succeed).2.oldToken now .succeed = none :=
    c.takenOver_leaves.oldToken hold
  rw [hnone] at hne
  exact hne ((c.takenOver now .succeed).2.oldToken_later hleft hle)

/-- In every run from a first launch that nothing hinders, ending the app at any moment and
launching it again starts with the token of that moment, exactly if no event forgets it. -/
theorem token_survives_exact {now : NSDate} {start : AccessTokens}
    (hfirst : machine.step (found cache clock) (.launch false now UUID .succeed .succeed) = some start)
    (es : List TokenEvent) : machine.Throughout Survives start es ↔
      machine.Along (fun _ s e => ¬s.Forgets e) start es := by
  have hu : (if clock ≤ now ∧ UUID ∉ (found cache clock).UUIDs then some (((found cache clock).launch
      false now UUID .succeed .succeed).mint UUID) else none) = some start := hfirst
  split_ifs at hu with hnew
  obtain rfl := Option.some.inj hu
  apply Machine.throughout_iff_along (I := fun _ s => s.Launched)
  · exact didFinishLaunching_launched rfl rfl (found_stamped cache).started
  · exact fun _ _ _ _ hl hu => launched_step hl hu
  · exact launch_found_survives cache hnew.2
  · exact fun _ _ _ _ hl hs hu => survives_step hl hs hu

end Runs

/-- A logout after an update from two earlier versions is undone by the next launch. -/
theorem token_survives_updated : ∃ start : AccessTokens,
    ¬machine.Throughout Survives start [.setCurrentAccessToken none "2" .succeed] := by
  let old : TokenInformation := ⟨some "0", some "token", none, some "user", none, none, none, none⟩
  let cache : TokenCache := ⟨none, some old, some old, none, some "0", none, true⟩
  let start : AccessTokens := ((found cache 0).launch false 0 "1" .succeed .succeed).mint "1"
  have hnew : (0 : NSDate) ≤ 0 ∧ "1" ∉ (found cache 0).UUIDs := by decide
  have hfirst : machine.step (found cache 0) (.launch false 0 "1" .succeed .succeed) = some start := by
    simp only [machine, step]
    exact if_pos hnew
  refine ⟨start, fun hsurvives => ?_⟩
  have halong := (token_survives_exact cache hfirst _).mp hsurvives
  have hstep : (machine.step start (.setCurrentAccessToken none "2" .succeed)).isSome := by
    decide +kernel
  obtain ⟨u, hu⟩ := Option.isSome_iff_exists.mp hstep
  refine halong [] _ List.prefix_rfl start u rfl hu ⟨?_, ?_⟩
  · decide +kernel
  · decide +kernel

section Reinstalled

/-- What is in the keychain for earlier versions is only ever taken away. -/
structure Shrinks (c c' : TokenCache) : Prop where
  v3_21 : c'.v3_21 = c.v3_21 ∨ c'.v3_21 = none
  v3_17 : c'.v3_17 = c.v3_17 ∨ c'.v3_17 = none

namespace Shrinks

variable {c c' c'' : TokenCache}

theorem of_leaves (h : TokenCache.Leaves c c') : Shrinks c c' := ⟨h.v3_21, h.v3_17⟩

theorem trans (h : Shrinks c c') (h' : Shrinks c' c'') : Shrinks c c'' where
  v3_21 := h'.v3_21.elim (fun heq => by rw [heq]; exact h.v3_21) Or.inr
  v3_17 := h'.v3_17.elim (fun heq => by rw [heq]; exact h.v3_17) Or.inr

theorem cacheAccessToken (c : TokenCache) (token : Option DatedAccessToken) (UUID : String)
    (calls : KeychainCalls) :
    Shrinks c (FBSDKAccessTokenCache.cacheAccessToken c token UUID calls) := by
  have hcached : Shrinks c (FBSDKAccessTokenCacheV4.cacheAccessToken c token UUID calls) := by
    cases token <;> exact ⟨Or.inl rfl, Or.inl rfl⟩
  unfold FBSDKAccessTokenCache.cacheAccessToken
  dsimp only
  split_ifs
  · refine hcached.trans ((?_ : Shrinks _ _).trans (of_leaves (.clearCaches _ _)))
    exact ⟨Or.inl rfl, Or.inl rfl⟩
  · exact hcached

theorem fetchAccessToken (c : TokenCache) (now : NSDate) (UUID : String) (calls : KeychainCalls) :
    Shrinks c (FBSDKAccessTokenCache.fetchAccessToken c now UUID calls).2 := by
  have hcleared : Shrinks c (FBSDKAccessTokenCacheV4.clearCache c calls) := ⟨Or.inl rfl, Or.inl rfl⟩
  have htaken : Shrinks c (c.takenOver now calls).2 :=
    hcleared.trans ⟨c.takenOver_leaves.v3_21, c.takenOver_leaves.v3_17⟩
  by_cases hread : calls.readV4 = true ∧ c.stored.isSome
  · obtain ⟨t, hstored⟩ := Option.isSome_iff_exists.mp hread.2
    rw [fetchAccessToken_stored c hread.1 hstored]
    exact ⟨Or.inl rfl, Or.inl rfl⟩
  · cases htry : c.tryDeprecatedCaches with
    | false =>
      have htried : (FBSDKAccessTokenCacheV4.clearCache c calls).tryDeprecatedCaches = false := htry
      rw [FBSDKAccessTokenCache.fetchAccessToken, c.fetch_v4, if_neg hread]
      simp only [htried, Bool.false_eq_true, if_false]
      exact hcleared
    | true =>
      rw [fetchAccessToken_old c now UUID htry hread]
      generalize c.takenOver now calls = old at htaken
      obtain ⟨token, left⟩ := old
      cases token with
      | none => exact htaken
      | some t => exact htaken.trans ⟨Or.inl rfl, Or.inl rfl⟩

end Shrinks

theorem setCurrentAccessToken_shrinks (s : AccessTokens) (token : Option TokenObject) (UUID : String)
    (calls : KeychainCalls) :
    Shrinks s.cache (s.setCurrentAccessToken token UUID calls).cache := by
  unfold setCurrentAccessToken
  split_ifs
  · exact ⟨Or.inl rfl, Or.inl rfl⟩
  · apply Shrinks.cacheAccessToken

theorem step_shrinks {e : TokenEvent} (hu : machine.step s e = some u) :
    Shrinks s.cache u.cache ∧ s.clock ≤ u.clock := by
  cases e with
  | launch reinstalled now UUID fetching setting =>
    have hu : (if s.clock ≤ now ∧ UUID ∉ s.UUIDs then
      some ((s.launch reinstalled now UUID fetching setting).mint UUID) else none) = some u := hu
    split_ifs at hu with hguard
    obtain rfl := Option.some.inj hu
    have hclock : (s.launch reinstalled now UUID fetching setting).clock = now :=
      setCurrentAccessToken_clock _ _ _
    refine ⟨?_, hclock.ge.trans' hguard.1⟩
    have hstarted : Shrinks s.cache (s.started reinstalled now).cache := ⟨Or.inl rfl, Or.inl rfl⟩
    have hfetched := hstarted.trans (Shrinks.fetchAccessToken _ now UUID fetching)
    refine hfetched.trans ?_
    exact setCurrentAccessToken_shrinks { (s.started reinstalled now) with
      cache := (FBSDKAccessTokenCache.fetchAccessToken _ now UUID fetching).2 } _ UUID setting
  | setCurrentAccessToken token UUID calls =>
    have hu : (if UUID ∉ s.UUIDs then some ((s.setCurrentAccessToken token UUID calls).mint UUID)
      else none) = some u := hu
    split_ifs at hu
    obtain rfl := Option.some.inj hu
    exact ⟨s.setCurrentAccessToken_shrinks token UUID calls, (s.setCurrentAccessToken_clock token calls).ge⟩

/-- An app that is deleted and installed again starts without a token. -/
def Erased (s : AccessTokens) : Prop :=
  ∀ later UUID, s.clock ≤ later → (s.launch true later UUID .succeed .succeed).current = none

theorem erased_iff : s.Erased ↔ accessTokenForV3Dictionary s.clock s.cache.v3_21 = none ∧
    accessTokenForV3Dictionary s.clock s.cache.v3_17 = none := by
  have hlaunch : ∀ later UUID, (s.launch true later UUID .succeed .succeed).current = none ↔
      accessTokenForV3Dictionary later s.cache.v3_21 = none ∧
        accessTokenForV3Dictionary later s.cache.v3_17 = none := by
    intro later UUID
    have hstored : (s.started true later).cache.stored = none := s.cache.cell.value_unstamped
    unfold launch
    rw [didFinishLaunching_current rfl rfl, hstored, TokenCache.takenOver_token]
    simp [TokenCache.oldToken_eq_none, KeychainCalls.succeed, started, TokenCache.accessToken_none]
  constructor
  · exact fun h => (hlaunch s.clock "").mp (h s.clock "" le_rfl)
  · exact fun h later UUID hle => (hlaunch later UUID).mpr
      ⟨TokenCache.accessToken_later h.1 hle, TokenCache.accessToken_later h.2 hle⟩

theorem erased_step {e : TokenEvent} (h : s.Erased) (hu : machine.step s e = some u) : u.Erased := by
  obtain ⟨hshrinks, hclock⟩ := step_shrinks hu
  have hkept : ∀ {d d' : Option TokenInformation}, d' = d ∨ d' = none →
      accessTokenForV3Dictionary s.clock d = none → accessTokenForV3Dictionary u.clock d' = none := by
    rintro d d' (rfl | rfl) hd
    · exact TokenCache.accessToken_later hd hclock
    · rfl
  rw [erased_iff] at h ⊢
  exact ⟨hkept hshrinks.v3_21 h.1, hkept hshrinks.v3_17 h.2⟩

/-- Deleting the app logs out, at every moment of a run, exactly if the keychain holds no valid
token of an earlier version when the run starts. -/
theorem erased_exact (s : AccessTokens) (es : List TokenEvent) : machine.Throughout Erased s es ↔
    accessTokenForV3Dictionary s.clock s.cache.v3_21 = none ∧
      accessTokenForV3Dictionary s.clock s.cache.v3_17 = none := by
  rw [← erased_iff]
  constructor
  · exact fun h => h [] List.nil_prefix s rfl
  · exact fun h before _ t ht => Machine.invariant (I := fun _ t => t.Erased) h
      (fun _ _ _ _ h hu => erased_step h hu) ht

end Reinstalled

end AccessTokens

end WhichStream.Facebook
