import Mathlib.Data.List.Infix
import Mathlib.Data.List.Nodup
import WhichStream.Library.Machine

/-!
The keychain that FirebaseAuth keeps its user in. Items of an older version have no
service and the key itself as their account; the first read moves such an item.
-/

namespace WhichStream.Firebase

open EventMachine

abbrev OSStatus := ℤ

def noErr : OSStatus := 0

def errSecDuplicateItem : OSStatus := -25299

def errSecItemNotFound : OSStatus := -25300

-- The status of a call that the keychain could not carry out.
structure Fault where
  status : OSStatus
  real : status ∉ [noErr, errSecDuplicateItem, errSecItemNotFound]

structure KeychainError where
  function : String
  status : OSStatus
  deriving DecidableEq, Repr

variable {α : Type*}

structure KeychainItem (α : Type*) where
  service : String
  account : String
  data : α

def KeychainItem.identity (i : KeychainItem α) : String × String := (i.service, i.account)

-- A query without a service matches items of every service.
structure Query where
  account : String
  service : Option String
  deriving DecidableEq, Repr

def Query.hits (query : Query) (i : KeychainItem α) : Bool :=
  i.account = query.account && query.service.all (fun s => i.service = s)

theorem Query.hits_iff {query : Query} {i : KeychainItem α} : query.hits i = true ↔
    i.account = query.account ∧ ∀ s, query.service = some s → i.service = s := by
  simp only [Query.hits, Bool.and_eq_true, decide_eq_true_eq]
  cases query.service <;> simp

def KeychainItem.update (query : Query) (data : α) (i : KeychainItem α) : KeychainItem α :=
  if query.hits i then { i with data := data } else i

theorem KeychainItem.identity_update (query : Query) (data : α) :
    KeychainItem.identity ∘ KeychainItem.update query data = KeychainItem.identity := by
  funext i
  unfold update
  rw [Function.comp_apply]
  split_ifs <;> rfl

theorem Query.hits_update (query other : Query) (data : α) (i : KeychainItem α) :
    query.hits (i.update other data) = query.hits i := by
  unfold KeychainItem.update
  split_ifs <;> rfl

structure FIRAuthKeychain (α : Type*) where
  items : List (KeychainItem α)
  service : String
  legacyEntryDeletedForKey : String → Bool
  unique : (items.map KeychainItem.identity).Nodup

def kAccountPrefix : String := "firebase_auth_1_"

namespace FIRAuthKeychain

variable (kc : FIRAuthKeychain α) (key : String)

def genericPasswordQuery : Query := ⟨kAccountPrefix ++ key, some kc.service⟩

def legacyGenericPasswordQuery (key : String) : Query := ⟨key, none⟩

def hits (query : Query) : List (KeychainItem α) := kc.items.filter query.hits

-- A match limit of two tells one item from several.
def itemWithQuery (query : Query) (fault : Option Fault) : Except KeychainError (Option α) :=
  match fault with
  | some f => .error ⟨"SecItemCopyMatching", f.status⟩
  | none =>
    match (kc.hits query).take 2 with
    | [] => .ok none
    | [i] => .ok (some i.data)
    | _ => .error ⟨"SecItemCopyMatching", noErr⟩

def secItemUpdate (query : Query) (data : α) : FIRAuthKeychain α where
  items := kc.items.map (KeychainItem.update query data)
  service := kc.service
  legacyEntryDeletedForKey := kc.legacyEntryDeletedForKey
  unique := by
    rw [List.map_map, KeychainItem.identity_update]
    exact kc.unique

def secItemAdd (i : KeychainItem α) (h : i.identity ∉ kc.items.map KeychainItem.identity) :
    FIRAuthKeychain α where
  items := kc.items ++ [i]
  service := kc.service
  legacyEntryDeletedForKey := kc.legacyEntryDeletedForKey
  unique := by
    rw [List.map_append, List.map_singleton, ← List.concat_eq_append, List.nodup_concat]
    exact ⟨h, kc.unique⟩

def secItemDelete (query : Query) : FIRAuthKeychain α where
  items := kc.items.filter (fun i => !query.hits i)
  service := kc.service
  legacyEntryDeletedForKey := kc.legacyEntryDeletedForKey
  unique := kc.unique.sublist (List.filter_sublist.map _)

-- `setItemWithQuery` adds the item, and updates it when the keychain has it already.
def setData (data : α) (fault : Option Fault) : Except KeychainError Unit × FIRAuthKeychain α :=
  let i : KeychainItem α := ⟨kc.service, kAccountPrefix ++ key, data⟩
  if h : i.identity ∈ kc.items.map KeychainItem.identity then
    match fault with
    | some f => (.error ⟨"SecItemUpdate", f.status⟩, kc)
    | none => (.ok (), kc.secItemUpdate (kc.genericPasswordQuery key) data)
  else
    match fault with
    | some f => (.error ⟨"SecItemAdd", f.status⟩, kc)
    | none => (.ok (), kc.secItemAdd i h)

def markLegacyEntryDeleted : FIRAuthKeychain α :=
  { kc with legacyEntryDeletedForKey := fun k => k = key || kc.legacyEntryDeletedForKey k }

-- The status of the deletion is ignored.
def deleteLegacyItem (fault : Option Fault) : FIRAuthKeychain α :=
  if kc.legacyEntryDeletedForKey key then kc
  else
    match fault with
    | some _ => kc.markLegacyEntryDeleted key
    | none => (kc.secItemDelete (legacyGenericPasswordQuery key)).markLegacyEntryDeleted key

structure ReadFaults where
  copy : Option Fault
  legacyCopy : Option Fault
  save : Option Fault
  legacyDelete : Option Fault

structure ReadFaults.Succeed (f : ReadFaults) : Prop where
  copy : f.copy = none
  legacyCopy : f.legacyCopy = none
  save : f.save = none

def dataForKey (f : ReadFaults) : Except KeychainError (Option α) × FIRAuthKeychain α :=
  match kc.itemWithQuery (kc.genericPasswordQuery key) f.copy with
  | .error e => (.error e, kc)
  | .ok (some data) => (.ok (some data), kc)
  | .ok none =>
    if kc.legacyEntryDeletedForKey key then (.ok none, kc)
    else
      match kc.itemWithQuery (legacyGenericPasswordQuery key) f.legacyCopy with
      | .error e => (.error e, kc)
      | .ok none => (.ok none, kc.markLegacyEntryDeleted key)
      | .ok (some data) =>
        match kc.setData key data f.save with
        | (.error e, moved) => (.error e, moved)
        | (.ok _, moved) => (.ok (some data), moved.deleteLegacyItem key f.legacyDelete)

def removeDataForKey (fault legacyFault : Option Fault) :
    Except KeychainError Unit × FIRAuthKeychain α :=
  match fault with
  | some f => (.error ⟨"SecItemDelete", f.status⟩, kc)
  | none =>
    (.ok (), (kc.secItemDelete (kc.genericPasswordQuery key)).deleteLegacyItem key legacyFault)

-- A new process knows of no deleted items.
def relaunch : FIRAuthKeychain α := { kc with legacyEntryDeletedForKey := fun _ => false }

/-- What the store holds for the key, in whichever form. -/
def stored : Option α :=
  match kc.hits (kc.genericPasswordQuery key) with
  | i :: _ => some i.data
  | [] =>
    if kc.legacyEntryDeletedForKey key then none
    else (kc.hits (legacyGenericPasswordQuery key)).head?.map KeychainItem.data

structure Sound : Prop where
  legacyOnce : (kc.hits (legacyGenericPasswordQuery key)).length ≤ 1
  deleted : kc.legacyEntryDeletedForKey key = true →
    kc.hits (legacyGenericPasswordQuery key) = []

section Queries

variable {kc key}

theorem prefix_ne : kAccountPrefix ++ key ≠ key := by
  intro h
  have hl := congrArg String.length h
  rw [String.length_append] at hl
  have hp : kAccountPrefix.length = 16 := by decide
  omega

theorem generic_hits {i : KeychainItem α} : (kc.genericPasswordQuery key).hits i = true ↔
    i.identity = (kc.service, kAccountPrefix ++ key) := by
  simp only [Query.hits_iff, genericPasswordQuery, KeychainItem.identity, Option.some.injEq,
    forall_eq', Prod.mk.injEq, and_comm]

theorem legacy_hits {i : KeychainItem α} :
    (legacyGenericPasswordQuery key).hits i = true ↔ i.account = key := by
  simp [Query.hits_iff, legacyGenericPasswordQuery]

theorem not_both_hits (kc : FIRAuthKeychain α) {i : KeychainItem α} (h : (legacyGenericPasswordQuery key).hits i = true) :
    (kc.genericPasswordQuery key).hits i = false := by
  rw [legacy_hits] at h
  by_contra hg
  rw [Bool.not_eq_false, generic_hits] at hg
  have ha : i.account = kAccountPrefix ++ key := congrArg Prod.snd hg
  exact prefix_ne (ha.symm.trans h)

theorem generic_hits_once : (kc.hits (kc.genericPasswordQuery key)).length ≤ 1 := by
  have hn : ((kc.hits (kc.genericPasswordQuery key)).map KeychainItem.identity).Nodup :=
    kc.unique.sublist (List.filter_sublist.map _)
  have hsame : (kc.hits (kc.genericPasswordQuery key)).map KeychainItem.identity =
      List.replicate (kc.hits (kc.genericPasswordQuery key)).length
        (kc.service, kAccountPrefix ++ key) := by
    rw [List.eq_replicate_iff]
    refine ⟨List.length_map _, ?_⟩
    intro b hb
    obtain ⟨i, hi, rfl⟩ := List.mem_map.mp hb
    exact generic_hits.mp (List.mem_filter.mp hi).2
  rw [hsame] at hn
  exact List.nodup_replicate.mp hn

end Queries

section Operations

variable {kc key} {data : α}

theorem update_hits (query other : Query) : (kc.secItemUpdate other data).hits query =
    (kc.hits query).map (KeychainItem.update other data) := by
  unfold hits secItemUpdate
  rw [List.filter_map]
  congr 2
  exact funext (query.hits_update other data)

theorem mem_identity_iff :
    (kc.service, kAccountPrefix ++ key) ∈ kc.items.map KeychainItem.identity ↔
      kc.hits (kc.genericPasswordQuery key) ≠ [] := by
  rw [List.mem_map]
  constructor
  · rintro ⟨i, hi, he⟩
    exact List.ne_nil_of_mem (List.mem_filter.mpr ⟨hi, generic_hits.mpr he⟩)
  · intro hne
    obtain ⟨i, hi⟩ := List.exists_mem_of_ne_nil _ hne
    obtain ⟨hm, hq⟩ := List.mem_filter.mp hi
    exact ⟨i, hm, generic_hits.mp hq⟩

/-- A successful write leaves the one current item with the data written. -/
theorem setData_ok : (kc.setData key data none).1 = .ok () ∧
    (kc.setData key data none).2.service = kc.service ∧
    (kc.setData key data none).2.legacyEntryDeletedForKey = kc.legacyEntryDeletedForKey ∧
    ((kc.setData key data none).2.hits (kc.genericPasswordQuery key)).map KeychainItem.data = [data] ∧
    (kc.setData key data none).2.hits (legacyGenericPasswordQuery key) =
      kc.hits (legacyGenericPasswordQuery key) := by
  unfold setData
  dsimp only
  split
  · next hmem =>
    refine ⟨rfl, rfl, rfl, ?_, ?_⟩
    · have hne := mem_identity_iff.mp hmem
      obtain ⟨i, hi⟩ := List.length_eq_one_iff.mp
        (Nat.le_antisymm generic_hits_once (List.length_pos_iff.mpr hne))
      have hhit : (kc.genericPasswordQuery key).hits i = true :=
        (List.mem_filter.mp (hi ▸ List.mem_singleton_self i : i ∈ kc.hits _)).2
      rw [update_hits, hi]
      simp [KeychainItem.update, hhit]
    · rw [update_hits, List.map_congr_left, List.map_id]
      intro i hi
      have hmiss := not_both_hits kc (List.mem_filter.mp hi).2
      simp [KeychainItem.update, hmiss]
  · next hmem =>
    refine ⟨rfl, rfl, rfl, ?_, ?_⟩
    · have hnil : kc.hits (kc.genericPasswordQuery key) = [] := by
        by_contra hne
        exact hmem (mem_identity_iff.mpr hne)
      have hhit : (kc.genericPasswordQuery key).hits
          (⟨kc.service, kAccountPrefix ++ key, data⟩ : KeychainItem α) = true :=
        generic_hits.mpr rfl
      unfold hits at hnil ⊢
      rw [secItemAdd, List.filter_append, hnil]
      simp [hhit]
    · have hmiss : (legacyGenericPasswordQuery key).hits
          (⟨kc.service, kAccountPrefix ++ key, data⟩ : KeychainItem α) = false := by
        rw [← Bool.not_eq_true, legacy_hits]
        exact prefix_ne
      unfold hits
      rw [secItemAdd, List.filter_append]
      simp [hmiss]

theorem setData_fault (f : Fault) : (kc.setData key data (some f)).2 = kc ∧
    ∃ e, (kc.setData key data (some f)).1 = .error e := by
  unfold setData
  dsimp only
  split
  · exact ⟨rfl, _, rfl⟩
  · exact ⟨rfl, _, rfl⟩

theorem delete_generic : (kc.secItemDelete (kc.genericPasswordQuery key)).hits
    (kc.genericPasswordQuery key) = [] ∧
      (kc.secItemDelete (kc.genericPasswordQuery key)).hits (legacyGenericPasswordQuery key) =
        kc.hits (legacyGenericPasswordQuery key) := by
  unfold hits secItemDelete
  constructor
  · simp [List.filter_filter]
  · rw [List.filter_filter]
    apply List.filter_congr
    intro i _
    cases hl : (legacyGenericPasswordQuery key).hits i with
    | false => rfl
    | true => simp [not_both_hits kc hl]

theorem delete_legacy : (kc.secItemDelete (legacyGenericPasswordQuery key)).hits
    (kc.genericPasswordQuery key) = kc.hits (kc.genericPasswordQuery key) ∧
      (kc.secItemDelete (legacyGenericPasswordQuery key)).hits (legacyGenericPasswordQuery key) =
        [] := by
  unfold hits secItemDelete
  constructor
  · rw [List.filter_filter]
    apply List.filter_congr
    intro i _
    cases hl : (legacyGenericPasswordQuery key).hits i with
    | false => simp
    | true => simp [not_both_hits kc hl]
  · simp [List.filter_filter]

end Operations

section Storage

variable {kc} {kc' : FIRAuthKeychain α} {key} {data : α}

theorem query_congr (h : kc'.service = kc.service) :
    kc'.genericPasswordQuery key = kc.genericPasswordQuery key := by
  rw [genericPasswordQuery, h, genericPasswordQuery]

theorem stored_of_current (h : (kc.hits (kc.genericPasswordQuery key)).map KeychainItem.data = [data]) :
    kc.stored key = some data := by
  unfold stored
  cases hg : kc.hits (kc.genericPasswordQuery key) with
  | nil => simp [hg] at h
  | cons i is =>
    rw [hg, List.map_cons, List.cons.injEq] at h
    exact congrArg some h.1

theorem stored_of_absent (h : kc.hits (kc.genericPasswordQuery key) = []) :
    kc.stored key = if kc.legacyEntryDeletedForKey key then none
      else (kc.hits (legacyGenericPasswordQuery key)).head?.map KeychainItem.data := by
  rw [stored, h]

theorem itemWithQuery_once {query : Query} (h : (kc.hits query).length ≤ 1) :
    kc.itemWithQuery query none = .ok ((kc.hits query).head?.map KeychainItem.data) := by
  unfold itemWithQuery
  cases hq : kc.hits query with
  | nil => rfl
  | cons i is =>
    rw [hq, List.length_cons] at h
    have his : is = [] := List.length_eq_zero_iff.mp (by omega)
    rw [his]
    rfl

theorem deleteLegacyItem_generic (fault : Option Fault) :
    (kc.deleteLegacyItem key fault).service = kc.service ∧
      (kc.deleteLegacyItem key fault).hits (kc.genericPasswordQuery key) =
        kc.hits (kc.genericPasswordQuery key) := by
  unfold deleteLegacyItem
  split_ifs with hd
  · exact ⟨rfl, rfl⟩
  · cases fault with
    | none => exact ⟨rfl, delete_legacy.1⟩
    | some f => exact ⟨rfl, rfl⟩

theorem Sound.deleteLegacyItem (h : kc.Sound key) :
    (kc.deleteLegacyItem key none).hits (legacyGenericPasswordQuery key) = [] ∧
      (kc.deleteLegacyItem key none).legacyEntryDeletedForKey key = true := by
  unfold FIRAuthKeychain.deleteLegacyItem
  split_ifs with hd
  · exact ⟨h.deleted hd, hd⟩
  · exact ⟨delete_legacy.2, by simp [markLegacyEntryDeleted]⟩

theorem sound_of_empty (h : kc.hits (legacyGenericPasswordQuery key) = []) : kc.Sound key :=
  ⟨by rw [h]; exact Nat.zero_le 1, fun _ => h⟩

theorem setData_stored (data : α) (h : kc.Sound key) :
    (kc.setData key data none).2.Sound key ∧ (kc.setData key data none).2.stored key = some data := by
  obtain ⟨-, hservice, hflags, hgeneric, hlegacy⟩ := @setData_ok α kc key data
  constructor
  · exact ⟨by rw [hlegacy]; exact h.legacyOnce, by rw [hflags, hlegacy]; exact h.deleted⟩
  · rw [← query_congr hservice] at hgeneric
    exact stored_of_current hgeneric

theorem removeData_stored (h : kc.Sound key) : (kc.removeDataForKey key none none).2.Sound key ∧
    (kc.removeDataForKey key none none).2.stored key = none := by
  unfold removeDataForKey
  obtain ⟨hg, hl⟩ := @delete_generic α kc key
  have hdeleted : (kc.secItemDelete (kc.genericPasswordQuery key)).Sound key :=
    ⟨by rw [hl]; exact h.legacyOnce, by rw [hl]; exact h.deleted⟩
  obtain ⟨hservice, hgeneric⟩ := @deleteLegacyItem_generic α
    (kc.secItemDelete (kc.genericPasswordQuery key)) key none
  obtain ⟨hlegacy, hflag⟩ := hdeleted.deleteLegacyItem
  refine ⟨sound_of_empty hlegacy, ?_⟩
  rw [stored_of_absent, if_pos hflag]
  rw [query_congr hservice]
  exact hgeneric.trans hg

theorem dataForKey_stored (h : kc.Sound key) (f : ReadFaults) (hf : f.legacyDelete = none) :
    (kc.dataForKey key f).2.Sound key ∧ (kc.dataForKey key f).2.stored key = kc.stored key := by
  unfold dataForKey
  cases hcopy : f.copy with
  | some e => exact ⟨h, rfl⟩
  | none =>
    rw [itemWithQuery_once generic_hits_once]
    cases hg : kc.hits (kc.genericPasswordQuery key) with
    | cons i is => exact ⟨h, rfl⟩
    | nil =>
      have hs := stored_of_absent hg
      simp only [List.head?_nil, Option.map_none]
      split_ifs with hd
      · exact ⟨h, rfl⟩
      · rw [if_neg hd] at hs
        cases hlegacyCopy : f.legacyCopy with
        | some e => exact ⟨h, rfl⟩
        | none =>
          rw [itemWithQuery_once h.legacyOnce]
          cases hl : kc.hits (legacyGenericPasswordQuery key) with
          | nil =>
            have hg' : (kc.markLegacyEntryDeleted key).hits
                ((kc.markLegacyEntryDeleted key).genericPasswordQuery key) = [] := hg
            have hmarked : (kc.markLegacyEntryDeleted key).stored key = none := by
              rw [stored_of_absent hg']
              simp [markLegacyEntryDeleted]
            have hnone : kc.stored key = none := by rw [hs, hl]; rfl
            exact ⟨sound_of_empty hl, hmarked.trans hnone.symm⟩
          | cons i is =>
            simp only [List.head?_cons, Option.map_some]
            cases hsave : f.save with
            | some e =>
              obtain ⟨hsame, err, herr⟩ := @setData_fault α kc key i.data e
              have hpair : kc.setData key i.data (some e) = (.error err, kc) := Prod.ext herr hsame
              rw [hpair]
              exact ⟨h, rfl⟩
            | none =>
              obtain ⟨hok, hservice, hflags, hgeneric, hlegacy⟩ := @setData_ok α kc key i.data
              have hpair : kc.setData key i.data none = (.ok (), (kc.setData key i.data none).2) :=
                Prod.ext hok rfl
              rw [hpair, hf]
              obtain ⟨hmoved, -⟩ := setData_stored i.data h
              obtain ⟨hservice', hgeneric'⟩ := @deleteLegacyItem_generic α
                (kc.setData key i.data none).2 key none
              refine ⟨sound_of_empty hmoved.deleteLegacyItem.1, ?_⟩
              rw [hs, hl]
              apply stored_of_current
              rw [query_congr hservice', hgeneric', query_congr hservice]
              exact hgeneric

end Storage

end FIRAuthKeychain

inductive StoreEvent (α : Type*)
  | dataForKey (f : FIRAuthKeychain.ReadFaults)
  | setData (data : α) (fault : Option Fault)
  | removeDataForKey (fault legacyFault : Option Fault)
  | relaunch

namespace StoreEvent

def DeletesLegacy : StoreEvent α → Prop
  | .dataForKey f => f.legacyDelete = none
  | .removeDataForKey _ legacyFault => legacyFault = none
  | _ => True

/-- What the store is for: one cell that keeps what was written last. -/
def next (cell : Option α) : StoreEvent α → Option α
  | .setData data none => some data
  | .removeDataForKey none _ => none
  | _ => cell

end StoreEvent

namespace FIRAuthKeychain

variable {kc kc' : FIRAuthKeychain α} {key : String}

def step (key : String) (kc : FIRAuthKeychain α) : StoreEvent α → Option (FIRAuthKeychain α)
  | .dataForKey f => some (kc.dataForKey key f).2
  | .setData data fault => some (kc.setData key data fault).2
  | .removeDataForKey fault legacyFault => some (kc.removeDataForKey key fault legacyFault).2
  | .relaunch => some kc.relaunch

def machine (key : String) : Machine (FIRAuthKeychain α) (StoreEvent α) := ⟨step key⟩

theorem relaunch_stored (h : kc.Sound key) :
    kc.relaunch.Sound key ∧ kc.relaunch.stored key = kc.stored key := by
  refine ⟨⟨h.legacyOnce, fun hd => by cases hd⟩, ?_⟩
  unfold stored
  have hg : kc.relaunch.hits (kc.relaunch.genericPasswordQuery key) =
      kc.hits (kc.genericPasswordQuery key) := rfl
  rw [hg]
  split
  · rfl
  · split_ifs with hr hd hd
    · cases hr
    · cases hr
    · have hl : kc.relaunch.hits (legacyGenericPasswordQuery key) = [] := h.deleted hd
      rw [hl]
      rfl
    · rfl

theorem step_stored {e : StoreEvent α} (h : kc.Sound key) (he : e.DeletesLegacy)
    (hu : (machine key).step kc e = some kc') :
    kc'.Sound key ∧ kc'.stored key = e.next (kc.stored key) := by
  cases e with
  | dataForKey f =>
    obtain rfl := Option.some.inj hu
    exact dataForKey_stored h f he
  | setData data fault =>
    obtain rfl := Option.some.inj hu
    cases fault with
    | none => exact setData_stored data h
    | some f =>
      rw [setData_fault f |>.1]
      exact ⟨h, rfl⟩
  | removeDataForKey fault legacyFault =>
    obtain rfl := Option.some.inj hu
    obtain rfl : legacyFault = none := he
    cases fault with
    | none => exact removeData_stored h
    | some f => exact ⟨h, rfl⟩
  | relaunch =>
    obtain rfl := Option.some.inj hu
    exact relaunch_stored h

theorem dataForKey_result (h : kc.Sound key) {f : ReadFaults} (hcopy : f.copy = none)
    (hlegacyCopy : f.legacyCopy = none) (hsave : f.save = none) :
    (kc.dataForKey key f).1 = .ok (kc.stored key) := by
  unfold dataForKey
  rw [hcopy, itemWithQuery_once generic_hits_once]
  cases hg : kc.hits (kc.genericPasswordQuery key) with
  | cons i is =>
    have hs : kc.stored key = some i.data := by rw [stored, hg]
    rw [hs]
    rfl
  | nil =>
    rw [stored_of_absent hg]
    simp only [List.head?_nil, Option.map_none]
    split_ifs with hd
    · rfl
    · rw [hlegacyCopy, itemWithQuery_once h.legacyOnce]
      cases hl : kc.hits (legacyGenericPasswordQuery key) with
      | nil => rfl
      | cons i is =>
        simp only [List.head?_cons, Option.map_some]
        have hpair : kc.setData key i.data none = (.ok (), (kc.setData key i.data none).2) :=
          Prod.ext setData_ok.1 rfl
        rw [hsave, hpair]

/-- Through any operations, failures and relaunches the store reads back what was written
last, as long as no legacy item resists its deletion. -/
theorem reads_back {start : FIRAuthKeychain α} {es : List (StoreEvent α)} {f : ReadFaults}
    (hstart : start.Sound key)
    (hes : (machine key).Along (fun _ _ e => e.DeletesLegacy) start es)
    (hkc : (machine key).run start es = some kc) (hcopy : f.copy = none)
    (hlegacyCopy : f.legacyCopy = none) (hsave : f.save = none) :
    (kc.dataForKey key f).1 = .ok (es.foldl StoreEvent.next (start.stored key)) := by
  have hcell : kc.Sound key ∧ kc.stored key = es.foldl StoreEvent.next (start.stored key) := by
    apply hes.refines (R := fun (kc : FIRAuthKeychain α) cell => kc.Sound key ∧ kc.stored key = cell)
      ⟨hstart, rfl⟩ _ hkc
    rintro before kc e kc' _ ⟨h, rfl⟩ he hu
    exact step_stored h he hu
  rw [← hcell.2]
  exact dataForKey_result hcell.1 hcopy hlegacyCopy hsave

theorem reads_back_saved : ∃ start kc : FIRAuthKeychain ℕ,
    (machine "user").run start [.setData 1 none, .setData 2 (some ⟨-1, by decide⟩), .relaunch] = some kc ∧
      (kc.dataForKey "user" ⟨none, none, none, none⟩).1 = .ok (some 1) := by
  have hstart : (⟨[], "app", fun _ => false, List.nodup_nil⟩ : FIRAuthKeychain ℕ).Sound "user" :=
    sound_of_empty rfl
  have hes : (machine "user").Along (fun _ _ e => e.DeletesLegacy)
      (⟨[], "app", fun _ => false, List.nodup_nil⟩ : FIRAuthKeychain ℕ)
      [.setData 1 none, .setData 2 (some ⟨-1, by decide⟩), .relaunch] := by
    intro before e hb t u _ _
    have he := hb.subset (List.mem_append_right before (List.mem_singleton_self e))
    simp only [List.mem_cons, List.not_mem_nil, or_false] at he
    obtain rfl | rfl | rfl := he
    · trivial
    · trivial
    · trivial
  exact ⟨_, _, rfl, reads_back hstart hes rfl rfl rfl rfl⟩

theorem deleteLegacyItem_legacy (kc : FIRAuthKeychain α) (key : String) (fault : Option Fault) :
    (kc.deleteLegacyItem key fault).hits (legacyGenericPasswordQuery key) =
      if kc.legacyEntryDeletedForKey key || fault.isSome then kc.hits (legacyGenericPasswordQuery key)
      else [] := by
  unfold FIRAuthKeychain.deleteLegacyItem
  cases kc.legacyEntryDeletedForKey key with
  | true => rfl
  | false =>
    cases fault with
    | none => exact delete_legacy.2
    | some f => rfl

/-- A legacy item outlasts the removal when its deletion fails, or is skipped because an
earlier one failed. -/
theorem removeData_legacy (kc : FIRAuthKeychain α) (key : String) (fault : Option Fault) :
    (kc.removeDataForKey key none fault).2.hits
        ((kc.removeDataForKey key none fault).2.genericPasswordQuery key) = [] ∧
      (kc.removeDataForKey key none fault).2.hits (legacyGenericPasswordQuery key) =
        if kc.legacyEntryDeletedForKey key || fault.isSome then
          kc.hits (legacyGenericPasswordQuery key) else [] := by
  obtain ⟨hg, hl⟩ := @delete_generic α kc key
  obtain ⟨hservice, hgeneric⟩ := @deleteLegacyItem_generic α
    (kc.secItemDelete (kc.genericPasswordQuery key)) key fault
  unfold removeDataForKey
  dsimp only
  constructor
  · rw [query_congr hservice]
    exact hgeneric.trans hg
  · rw [deleteLegacyItem_legacy, hl]
    rfl

theorem removeData_hits (h : kc.Sound key) (fault : Option Fault) :
    (kc.removeDataForKey key none fault).2.hits
        ((kc.removeDataForKey key none fault).2.genericPasswordQuery key) = [] ∧
      (kc.removeDataForKey key none fault).2.hits (legacyGenericPasswordQuery key) =
        if fault.isNone then [] else kc.hits (legacyGenericPasswordQuery key) := by
  obtain ⟨hg, hl⟩ := kc.removeData_legacy key fault
  refine ⟨hg, hl.trans ?_⟩
  cases hd : kc.legacyEntryDeletedForKey key with
  | true =>
    rw [h.deleted hd]
    simp
  | false => cases fault <;> rfl

section Relaunch

/-- What a new process finds for the key. -/
def kept (kc : FIRAuthKeychain α) (key : String) : Option α := kc.relaunch.stored key

def legacyData (kc : FIRAuthKeychain α) (key : String) : Option α :=
  (kc.hits (legacyGenericPasswordQuery key)).head?.map KeychainItem.data

theorem kept_of_current {data : α}
    (h : (kc.hits (kc.genericPasswordQuery key)).map KeychainItem.data = [data]) :
    kc.kept key = some data := by
  have hrelaunched : (kc.relaunch.hits (kc.relaunch.genericPasswordQuery key)).map
      KeychainItem.data = [data] := h
  exact stored_of_current hrelaunched

theorem kept_of_absent (h : kc.hits (kc.genericPasswordQuery key) = []) :
    kc.kept key = kc.legacyData key := by
  have hrelaunched : kc.relaunch.hits (kc.relaunch.genericPasswordQuery key) = [] := h
  exact stored_of_absent hrelaunched

theorem relaunch_sound (h : (kc.hits (legacyGenericPasswordQuery key)).length ≤ 1) :
    kc.relaunch.Sound key :=
  ⟨h, fun hd => by cases hd⟩

theorem setData_kept (kc : FIRAuthKeychain α) (key : String) (data : α) :
    (kc.setData key data none).2.kept key = some data ∧
      (kc.setData key data none).2.hits (legacyGenericPasswordQuery key) =
        kc.hits (legacyGenericPasswordQuery key) := by
  obtain ⟨-, hservice, -, hgeneric, hlegacy⟩ := @setData_ok α kc key data
  rw [← query_congr hservice] at hgeneric
  exact ⟨kept_of_current hgeneric, hlegacy⟩

theorem removeData_kept (kc : FIRAuthKeychain α) (key : String) (fault : Option Fault) :
    (kc.removeDataForKey key none fault).2.kept key =
      if kc.legacyEntryDeletedForKey key || fault.isSome then kc.legacyData key else none := by
  obtain ⟨hg, hl⟩ := kc.removeData_legacy key fault
  rw [kept_of_absent hg, legacyData, hl]
  split_ifs
  · rfl
  · rfl

/-- Reading leaves what a new process finds, whatever fails: the legacy item is deleted only
once it has been moved. -/
theorem dataForKey_kept (h : (kc.hits (legacyGenericPasswordQuery key)).length ≤ 1)
    (f : ReadFaults) :
    (kc.dataForKey key f).2.kept key = kc.kept key ∧
      ((kc.dataForKey key f).2.hits (legacyGenericPasswordQuery key)).length ≤ 1 := by
  unfold dataForKey
  cases hcopy : f.copy with
  | some e => exact ⟨rfl, h⟩
  | none =>
    rw [itemWithQuery_once generic_hits_once]
    cases hg : kc.hits (kc.genericPasswordQuery key) with
    | cons i is => exact ⟨rfl, h⟩
    | nil =>
      have hkept := kept_of_absent hg
      simp only [List.head?_nil, Option.map_none]
      split_ifs with hd
      · exact ⟨rfl, h⟩
      · cases hlegacyCopy : f.legacyCopy with
        | some e => exact ⟨rfl, h⟩
        | none =>
          rw [itemWithQuery_once h]
          cases hl : kc.hits (legacyGenericPasswordQuery key) with
          | nil => exact ⟨rfl, h⟩
          | cons i is =>
            simp only [List.head?_cons, Option.map_some]
            cases hsave : f.save with
            | some e =>
              obtain ⟨hsame, err, herr⟩ := @setData_fault α kc key i.data e
              have hpair : kc.setData key i.data (some e) = (.error err, kc) := Prod.ext herr hsame
              rw [hpair]
              exact ⟨rfl, h⟩
            | none =>
              obtain ⟨hok, hservice, -, hgeneric, hlegacy⟩ := @setData_ok α kc key i.data
              have hpair : kc.setData key i.data none = (.ok (), (kc.setData key i.data none).2) :=
                Prod.ext hok rfl
              rw [hpair]
              dsimp only
              obtain ⟨hservice', hgeneric'⟩ := @deleteLegacyItem_generic α
                (kc.setData key i.data none).2 key f.legacyDelete
              constructor
              · rw [hkept, legacyData, hl]
                apply kept_of_current
                rw [query_congr hservice', hgeneric', query_congr hservice]
                exact hgeneric
              · rw [deleteLegacyItem_legacy, hlegacy]
                split_ifs
                · exact h
                · exact Nat.zero_le 1

end Relaunch

end FIRAuthKeychain

end WhichStream.Firebase
