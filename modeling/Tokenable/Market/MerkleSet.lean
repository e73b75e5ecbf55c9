import Mathlib.Data.List.Sort
import Tokenable.Async.Memo
import Tokenable.Async.Triple
import Tokenable.Cards.BucketKey
import Tokenable.Platform.Config

/-!
# The Merkle set of a collection

`CollectionMerkleSetService`: the token ids that a collection bid may be filled with, computed from
the registry or from the chain and the metadata of each token, and kept in a cache by collection,
contract and supply. Readers of one key share a computation that is in flight.

`ticks` counts the invalidations and `invalidated k` is the count at the last one of collection `k`;
`since` is the count when the first of a set's data was read.
-/

namespace MerkleSet
open Js Platform Async

structure TokenSet where
  tokenIds : List JsStr
  since : ℕ
  deriving DecidableEq

/-- The promise of a computation, made when `ticks` was `born`. -/
structure Work where
  born : ℕ
  outcome : Option (Except HttpError TokenSet) := none

structure Store where
  ticks : ℕ := 0
  invalidated : JsStr → ℕ := fun _ => 0
  memo : Memo JsStr TokenSet := Memo.empty
  works : List Work := []

/-- How a read goes on after its look into the cache and the computations in flight. -/
inductive Entered where
  | hit (set : TokenSet)
  | joined (work : ℕ)
  | started (work : ℕ)

/-- A datum, and the `ticks` at which it was read. -/
structure Stamped (α : Type) where
  value : α
  since : ℕ

inductive Cmd where
  | begin (k : JsStr)
  | getRwaInfo (chainId : ℕ)
  | enter (cacheKey : JsStr) (bypassCache : Bool)
  | tokenIdsForCollectionKey (k : JsStr) (chainId : ℕ)
  | listLiveTokenIds (chainId : ℕ)
  | resolveMetadataUriForToken (tokenId chainId : ℕ)
  | fetchMetadataJson (uri : JsStr)
  | sleep (ms : ℕ)
  | settle (work : ℕ) (cacheKey : JsStr) (outcome : Except HttpError TokenSet)
  | join (work : ℕ)
  | fill (k cacheKey : JsStr) (set : TokenSet) (ttlMs : ℤ)
  | invalidate (k : JsStr)

abbrev Res (F : Type) : Cmd → Type
  | .begin _ => ℕ
  | .getRwaInfo _ => Except HttpError ℕ
  | .enter .. => Entered
  | .tokenIdsForCollectionKey .. => Except HttpError (Stamped (List JsStr))
  | .listLiveTokenIds _ => Except HttpError (Stamped (List ℕ))
  | .resolveMetadataUriForToken .. => Except HttpError (Option JsStr)
  | .fetchMetadataJson _ => Except HttpError (Json F)
  | .sleep _ => Unit
  | .settle .. => Unit
  | .join _ => Except HttpError TokenSet
  | .fill .. => Unit
  | .invalidate _ => Unit

/-- What the database, the chain, IPFS and the clock answer at a step. -/
structure World (F : Type) where
  now : ℤ := 0
  totalMinted : Except HttpError ℕ := .ok 0
  registry : Except HttpError (List JsStr) := .ok []
  liveIds : Except HttpError (List ℕ) := .ok []
  metadataUri : Except HttpError (Option JsStr) := .ok none
  metadata : Except HttpError (Json F) := .ok .null

structure MerkleConfig where
  cacheTtlMs : ℤ := 45000
  scanConcurrency : ℕ := 4
  preferRegistry : Bool := true

structure Options where
  bypassCache : Bool := false
  chainId : Option ℕ := none

abbrev M (F : Type) := Prog Cmd (Res F) HttpError

section Functions
variable {F : Type}

def perform (c : Cmd) : M F (Res F c) := .call c fun r => .ret (.ok r)

def cacheKeyOf (k rwaAddress : JsStr) (totalMinted : ℕ) : JsStr :=
  k ++ js ":" ++ rwaAddress ++ js ":" ++ ofNat totalMinted

variable (N : Numbers F) (hash : Cards.BucketPayload → JsStr) (env : Env) (cfg : MerkleConfig)

/-- The body of the `try`: a token whose metadata names no collection is not retried. -/
def belongsNow (tokenId : ℕ) (targetKeyLower : JsStr) (chainId : ℕ) : M F Bool := do
  let uri ← Prog.call (.resolveMetadataUriForToken tokenId chainId) .ret
  if truthy uri then do
    let json ← Prog.call (.fetchMetadataJson (uri.getD [])) .ret
    match Cards.Backend.bucketKey N hash (some json) with
    | .error _ => throw (.internal (js "TypeError"))
    | .ok none => pure false
    | .ok (some key) => pure (lower key = targetKeyLower)
  else pure false

def pause (attempt : ℕ) : M F Unit :=
  if 0 < attempt then perform (.sleep (100 * attempt)) else pure ()

/-- The attempts from number `attempt` on. -/
def belongsFrom (tokenId : ℕ) (targetKeyLower : JsStr) (chainId : ℕ) : ℕ → ℕ → M F Bool
  | 0, _ => pure false
  | left + 1, attempt => do
    pause attempt
    (belongsNow N hash tokenId targetKeyLower chainId).settle fun r =>
      match r with
      | .ok b => pure b
      | .error _ => belongsFrom tokenId targetKeyLower chainId left (attempt + 1)

def merkleTokenLookupAttempts : ℕ := 3

def mintedTokenBelongsToCollection (tokenId : ℕ) (targetKeyLower : JsStr) (chainId : ℕ) :
    M F Bool :=
  belongsFrom N hash tokenId targetKeyLower chainId merkleTokenLookupAttempts 0

/-- The tokens of `ids` in the collection. The lookups of a chunk run at once; they only read. -/
def matchedOf (targetKeyLower : JsStr) (chainId : ℕ) : List ℕ → M F (List JsStr)
  | [] => pure []
  | tokenId :: ids => do
    let flag ← mintedTokenBelongsToCollection N hash tokenId targetKeyLower chainId
    let rest ← matchedOf targetKeyLower chainId ids
    pure (if flag then ofNat tokenId :: rest else rest)

def matchedOfChunks (targetKeyLower : JsStr) (chainId : ℕ) : List (List ℕ) → M F (List JsStr)
  | [] => pure []
  | chunk :: chunks => do
    let matched ← matchedOf N hash targetKeyLower chainId chunk
    let rest ← matchedOfChunks targetKeyLower chainId chunks
    pure (matched ++ rest)

def scanMintedTokenIdsForCollectionKey (targetKeyLower : JsStr) (chainId : ℕ) : M F TokenSet := do
  let liveIds ← Prog.call (.listLiveTokenIds chainId) .ret
  if liveIds.value.isEmpty then pure ⟨[], liveIds.since⟩
  else do
    let sorted := liveIds.value.insertionSort (· ≤ ·)
    let matched ← matchedOfChunks N hash targetKeyLower chainId (sorted.toChunks cfg.scanConcurrency)
    pure ⟨matched.insertionSort (fun a b => toNat a ≤ toNat b), liveIds.since⟩

def resolveMerkleTokenIds (collectionKeyLower : JsStr) (chainId : ℕ) (bypassCache : Bool) :
    M F TokenSet :=
  if !bypassCache && cfg.preferRegistry then do
    let fromRegistry ← Prog.call (.tokenIdsForCollectionKey collectionKeyLower chainId) .ret
    if fromRegistry.value.isEmpty then do
      let scanned ← scanMintedTokenIdsForCollectionKey N hash cfg collectionKeyLower chainId
      -- the registry was read first, and found empty
      pure { scanned with since := fromRegistry.since }
    else pure ⟨fromRegistry.value, fromRegistry.since⟩
  else scanMintedTokenIdsForCollectionKey N hash cfg collectionKeyLower chainId

/-- The computation of a read that shares no other one. -/
def ownWork (k cacheKey : JsStr) (chainId : ℕ) (bypassCache : Bool) (work : ℕ) : M F TokenSet := do
  (resolveMerkleTokenIds N hash cfg k chainId bypassCache).settle fun r =>
    perform (.settle work cacheKey r)
  let result ← Prog.call (.join work) .ret
  if bypassCache then pure result
  else do
    perform (.fill k cacheKey result cfg.cacheTtlMs)
    pure result

def merkleEligibleTokenIds (k : JsStr) (options : Options) : M F TokenSet := do
  let chainId := options.chainId.getD env.getDefaultChainId
  let rwaAddress ← Prog.ret (env.getRwaAddress chainId)
  let totalMinted ← Prog.call (.getRwaInfo chainId) .ret
  let cacheKey := cacheKeyOf k rwaAddress totalMinted
  let entered ← perform (.enter cacheKey options.bypassCache)
  match entered with
  | .hit set => pure set
  | .joined work => .call (.join work) .ret
  | .started work => ownWork N hash cfg k cacheKey chainId options.bypassCache work

/-- A settled read: the last invalidation of its collection that had returned when it started, and
what it got. -/
structure Reading where
  bypassCache : Bool
  start : ℕ
  set : TokenSet
  deriving DecidableEq

inductive Call where
  | merkleEligibleTokenIds (collectionKey : JsStr) (options : Options)
  | invalidateForCollection (collectionKey : JsStr)

def Call.task : Call → M F (Option Reading)
  | .merkleEligibleTokenIds collectionKey options => do
    let k := lower collectionKey
    let start ← perform (.begin k)
    let set ← MerkleSet.merkleEligibleTokenIds N hash env cfg k options
    pure (some ⟨options.bypassCache, start, set⟩)
  | .invalidateForCollection collectionKey => do
    perform (.invalidate (lower collectionKey))
    pure none

end Functions

section Handler
variable {F : Type}

def startsWith (k key : JsStr) : Bool := (k ++ js ":").isPrefixOf key

def Store.enter (s : Store) (now : ℤ) (cacheKey : JsStr) (bypassCache : Bool) : Entered × Store :=
  let started := { s with works := s.works ++ [⟨s.ticks, none⟩] }
  if bypassCache then (.started s.works.length, started)
  else
    match s.memo.hit now cacheKey with
    | some set => (.hit set, s)
    | none =>
      match s.memo.inflight cacheKey with
      | some w => (.joined w, s)
      | none =>
        (.started s.works.length, { started with memo := s.memo.share cacheKey s.works.length })

/-- The promise settles, and is no longer in flight. -/
def Store.settle (s : Store) (work : ℕ) (cacheKey : JsStr) (outcome : Except HttpError TokenSet) :
    Store :=
  { s with
    works := s.works.modify work fun w => { w with outcome := some outcome }
    memo := s.memo.unshare cacheKey work }

def Store.invalidateForCollection (s : Store) (k : JsStr) : Store :=
  { s with
    ticks := s.ticks + 1
    invalidated := Function.update s.invalidated k (s.ticks + 1)
    memo := s.memo.drop (startsWith k) }

def exec : Handler Store (World F) Cmd (Res F) := fun _ s x c =>
  match c with
  | .begin k => some (s.invalidated k, s)
  | .getRwaInfo _ => some (x.totalMinted, s)
  | .enter cacheKey bypassCache => some (s.enter x.now cacheKey bypassCache)
  | .tokenIdsForCollectionKey .. => some (x.registry.map fun v => ⟨v, s.ticks⟩, s)
  | .listLiveTokenIds _ => some (x.liveIds.map fun v => ⟨v, s.ticks⟩, s)
  | .resolveMetadataUriForToken .. => some (x.metadataUri, s)
  | .fetchMetadataJson _ => some (x.metadata, s)
  | .sleep _ => some ((), s)
  | .settle work cacheKey outcome => some ((), s.settle work cacheKey outcome)
  | .join work => ((s.works[work]?).bind Work.outcome).map fun r => (r, s)
  | .fill _ cacheKey set ttlMs =>
    some ((), { s with memo := s.memo.store cacheKey ⟨set, x.now + ttlMs⟩ })
  | .invalidate k => some ((), s.invalidateForCollection k)

/-- A set enters the cache only when its collection was not invalidated since its data were read. -/
def FreshFill : Allowed Store Cmd
  | _, s, .fill k _ set _ => s.invalidated k ≤ set.since
  | _, _, _ => True

instance (i : ℕ) (s : Store) (c : Cmd) : Decidable (FreshFill i s c) := by
  cases c with
  | fill k _ set _ => exact Nat.decLe (s.invalidated k) set.since
  | _ => exact .isTrue trivial

end Handler

section Keys

theorem colon_not_mem_of_isAddress {s : JsStr} (h : isAddress s = true) : ':' ∉ s := by
  intro hmem
  simp only [isAddress, Bool.and_eq_true, decide_eq_true_eq, List.all_eq_true] at h
  obtain ⟨⟨h0x, -⟩, hall⟩ := h
  rw [← List.take_append_drop 2 s, h0x] at hmem
  rcases List.mem_append.mp hmem with hmem | hmem
  · exact absurd hmem (by decide)
  · exact absurd (hall _ hmem) (by decide)

theorem colon_not_mem_ofNat (n : ℕ) : ':' ∉ ofNat n := by
  intro hmem
  have hdigit := List.all_eq_true.mp ((Bool.and_eq_true _ _).mp (isDigits_ofNat n)).2 _ hmem
  exact absurd hdigit (by decide)

/-- The last colon divides a text in one way. -/
theorem append_colon_inj {a a' b b' : JsStr} (hb : ':' ∉ b) (hb' : ':' ∉ b')
    (h : a ++ ':' :: b = a' ++ ':' :: b') : a = a' ∧ b = b' := by
  rcases List.append_eq_append_iff.mp h with ⟨c, ha, hc⟩ | ⟨c, ha, hc⟩
  · cases c with
    | nil => simpa [ha] using hc
    | cons x c =>
      obtain ⟨-, hrest⟩ := List.cons.inj hc
      exact absurd (hrest ▸ List.mem_append_right c List.mem_cons_self) hb
  · cases c with
    | nil => simpa [ha, eq_comm] using hc
    | cons x c =>
      obtain ⟨-, hrest⟩ := List.cons.inj hc
      exact absurd (hrest ▸ List.mem_append_right c List.mem_cons_self) hb'

theorem collection_of_cacheKeyOf {k k' rwa rwa' : JsStr} {n n' : ℕ} (hrwa : isAddress rwa = true)
    (hrwa' : isAddress rwa' = true) (h : cacheKeyOf k rwa n = cacheKeyOf k' rwa' n') : k = k' := by
  have hsupply : (k ++ js ":" ++ rwa) ++ ':' :: ofNat n = (k' ++ js ":" ++ rwa') ++ ':' :: ofNat n' := by
    simpa [cacheKeyOf, js] using h
  have hcontract : k ++ ':' :: rwa = k' ++ ':' :: rwa' := by
    simpa [js] using (append_colon_inj (colon_not_mem_ofNat n) (colon_not_mem_ofNat n') hsupply).1
  exact (append_colon_inj (colon_not_mem_of_isAddress hrwa) (colon_not_mem_of_isAddress hrwa')
    hcontract).1

theorem startsWith_cacheKeyOf (k rwa : JsStr) (n : ℕ) : startsWith k (cacheKeyOf k rwa n) = true := by
  unfold startsWith cacheKeyOf
  rw [List.isPrefixOf_iff_prefix]
  exact ⟨rwa ++ js ":" ++ ofNat n, by simp⟩

end Keys

/-- Data read at `n` came after the last invalidation of the collection of the key. -/
def Store.Since (s : Store) (key : JsStr) (n : ℕ) : Prop :=
  ∀ k rwa m, isAddress rwa = true → key = cacheKeyOf k rwa m → s.invalidated k ≤ n

def Store.BornAt (s : Store) (w b : ℕ) : Prop :=
  ∃ work, s.works[w]? = some work ∧ work.born = b

structure Sound (s : Store) : Prop where
  memo : s.memo.Fresh (fun key set => s.Since key set.since)
    (fun key w => ∃ b, s.BornAt w b ∧ s.Since key b)
  works : ∀ (w : ℕ) (work : Work), s.works[w]? = some work → work.born ≤ s.ticks ∧
    ∀ set, work.outcome = some (.ok set) → work.born ≤ set.since
  ticks : ∀ k, s.invalidated k ≤ s.ticks

structure Later (s t : Store) : Prop where
  ticks : s.ticks ≤ t.ticks
  invalidated : ∀ k, s.invalidated k ≤ t.invalidated k
  born : ∀ w b, s.BornAt w b → t.BornAt w b

theorem Later.refl (s : Store) : Later s s := ⟨le_rfl, fun _ => le_rfl, fun _ _ h => h⟩

theorem Later.trans {s t u : Store} (hst : Later s t) (htu : Later t u) : Later s u :=
  ⟨hst.ticks.trans htu.ticks, fun k => (hst.invalidated k).trans (htu.invalidated k),
    fun w b h => htu.born w b (hst.born w b h)⟩

def freshness : Contract Store :=
  Contract.ofPreorder Sound Later Later.refl fun _ _ _ hst htu => hst.trans htu

def Quiet : Cmd → Prop
  | .enter .. | .settle .. | .fill .. | .invalidate _ => False
  | _ => True

section Steps
variable {s : Store}

theorem Sound.since (hs : Sound s) (key : JsStr) : s.Since key s.ticks :=
  fun k _ _ _ _ => hs.ticks k

theorem Sound.born_le (hs : Sound s) {w b : ℕ} (hw : s.BornAt w b) : b ≤ s.ticks := by
  obtain ⟨work, hwork, rfl⟩ := hw
  exact (hs.works w work hwork).1

theorem Store.BornAt.unique {w b b' : ℕ} (h : s.BornAt w b) (h' : s.BornAt w b') : b = b' := by
  obtain ⟨work, hwork, rfl⟩ := h
  obtain ⟨work', hwork', rfl⟩ := h'
  rw [hwork] at hwork'
  rw [Option.some.inj hwork']

/-- A new computation is born now. -/
theorem started_enter (hs : Sound s) {memo : Memo JsStr TokenSet}
    (hmemo : memo.Fresh (fun key set => s.Since key set.since) (fun key w =>
      (∃ b, s.BornAt w b ∧ s.Since key b) ∨ (w = s.works.length ∧ s.Since key s.ticks))) :
    let t : Store := { s with works := s.works ++ [⟨s.ticks, none⟩], memo := memo }
    Sound t ∧ Later s t ∧ t.BornAt s.works.length s.ticks := by
  intro t
  have hold : ∀ w b, s.BornAt w b → t.BornAt w b := by
    rintro w b ⟨work, hwork, hb⟩
    have hlt : w < s.works.length := (List.getElem?_eq_some_iff.mp hwork).1
    exact ⟨work, by rw [List.getElem?_append_left hlt]; exact hwork, hb⟩
  have hnew : t.BornAt s.works.length s.ticks := ⟨⟨s.ticks, none⟩, by simp [t], rfl⟩
  refine ⟨⟨?_, ?_, hs.ticks⟩, ⟨le_rfl, fun _ => le_rfl, hold⟩, hnew⟩
  · refine hmemo.mono (fun _ _ h => h) ?_
    rintro key w (⟨b, hb, hsince⟩ | ⟨rfl, hsince⟩)
    · exact ⟨b, hold w b hb, hsince⟩
    · exact ⟨s.ticks, hnew, hsince⟩
  · intro w work hwork
    rcases List.mem_append.mp (List.mem_of_getElem? hwork) with hmem | hmem
    · obtain ⟨w', hw'⟩ := List.getElem?_of_mem hmem
      exact hs.works w' work hw'
    · obtain rfl := List.mem_singleton.mp hmem
      exact ⟨le_rfl, fun set hset => by cases hset⟩

/-- What a look into the cache and the shared computations gives a read of collection `k`. -/
def Entered.After (n : ℕ) (s : Store) : Entered → Prop
  | .hit set => n ≤ set.since
  | .joined w | .started w => ∃ b, n ≤ b ∧ s.BornAt w b ∧ b ≤ s.ticks

theorem Entered.After.mono {n n' : ℕ} (hn : n' ≤ n) {e : Entered} (h : e.After n s) :
    e.After n' s := by
  cases e with
  | hit set => exact hn.trans h
  | joined w | started w =>
    obtain ⟨b, hb, hborn⟩ := h
    exact ⟨b, hn.trans hb, hborn⟩

theorem enter_spec (hs : Sound s) (now : ℤ) {k rwa : JsStr} {m : ℕ} (hrwa : isAddress rwa = true)
    (bypassCache : Bool) :
    Sound (s.enter now (cacheKeyOf k rwa m) bypassCache).2 ∧
      Later s (s.enter now (cacheKeyOf k rwa m) bypassCache).2 ∧
      (s.enter now (cacheKeyOf k rwa m) bypassCache).1.After (s.invalidated k)
        (s.enter now (cacheKeyOf k rwa m) bypassCache).2 := by
  have hkept : s.memo.Fresh (fun key set => s.Since key set.since) (fun key w =>
      (∃ b, s.BornAt w b ∧ s.Since key b) ∨ (w = s.works.length ∧ s.Since key s.ticks)) :=
    hs.memo.mono (fun _ _ h => h) fun _ _ h => .inl h
  unfold Store.enter
  dsimp only
  split_ifs
  · obtain ⟨hsound, hlater, hborn⟩ := started_enter hs hkept
    exact ⟨hsound, hlater, s.ticks, hs.ticks k, hborn, le_rfl⟩
  · split
    · rename_i set hhit
      exact ⟨hs, Later.refl s, hs.memo.hit hhit k rwa m hrwa rfl⟩
    · split
      · rename_i w hshared
        obtain ⟨b, hb, hsince⟩ := hs.memo.shared _ _ hshared
        exact ⟨hs, Later.refl s, b, hsince k rwa m hrwa rfl, hb, hs.born_le hb⟩
      · obtain ⟨hsound, hlater, hborn⟩ :=
          started_enter hs (hkept.share (.inr ⟨rfl, hs.since (cacheKeyOf k rwa m)⟩))
        exact ⟨hsound, hlater, s.ticks, hs.ticks k, hborn, le_rfl⟩

theorem settle_keeps (hs : Sound s) {w b : ℕ} {key : JsStr} {outcome : Except HttpError TokenSet}
    (hw : s.BornAt w b) (hset : ∀ set, outcome = .ok set → b ≤ set.since) :
    Sound (s.settle w key outcome) ∧ Later s (s.settle w key outcome) := by
  have hborn : ∀ v c, (s.settle w key outcome).BornAt v c ↔ s.BornAt v c := by
    intro v c
    unfold Store.BornAt Store.settle
    simp only [List.getElem?_modify]
    cases s.works[v]? with
    | none => simp
    | some work => by_cases hv : w = v <;> simp [hv]
  refine ⟨⟨?_, ?_, hs.ticks⟩, ⟨le_rfl, fun _ => le_rfl, fun v c => (hborn v c).mpr⟩⟩
  · refine hs.memo.unshare.mono (fun _ _ h => h) ?_
    rintro k v ⟨c, hc, hsince⟩
    exact ⟨c, (hborn v c).mpr hc, hsince⟩
  · intro v work hv
    unfold Store.settle at hv
    rw [List.getElem?_modify] at hv
    obtain ⟨old, hold, rfl⟩ := Option.map_eq_some_iff.mp hv
    by_cases hvw : w = v
    · subst hvw
      obtain rfl := hw.unique ⟨old, hold, rfl⟩
      rw [if_pos rfl]
      exact ⟨(hs.works _ _ hold).1, fun set h => hset set (Option.some.inj h)⟩
    · rw [if_neg hvw]
      exact hs.works v old hold

theorem fill_keeps (hs : Sound s) {k rwa : JsStr} {m : ℕ} (hrwa : isAddress rwa = true)
    {set : TokenSet} (hset : s.invalidated k ≤ set.since) (expiresAtMs : ℤ) :
    Sound { s with memo := s.memo.store (cacheKeyOf k rwa m) ⟨set, expiresAtMs⟩ } ∧
      Later s { s with memo := s.memo.store (cacheKeyOf k rwa m) ⟨set, expiresAtMs⟩ } := by
  refine ⟨⟨hs.memo.store ?_, hs.works, hs.ticks⟩, ⟨le_rfl, fun _ => le_rfl, fun _ _ h => h⟩⟩
  intro k' rwa' m' hrwa' hkey
  obtain rfl := collection_of_cacheKeyOf hrwa hrwa' hkey
  exact hset

theorem invalidate_keeps (hs : Sound s) (k : JsStr) :
    Sound (s.invalidateForCollection k) ∧ Later s (s.invalidateForCollection k) := by
  have hkept : ∀ key n, startsWith k key = false → s.Since key n →
      (s.invalidateForCollection k).Since key n := by
    intro key n hother h k' rwa m hrwa hkey
    have hne : k' ≠ k := by
      rintro rfl
      rw [hkey, startsWith_cacheKeyOf] at hother
      cases hother
    have hsame : (s.invalidateForCollection k).invalidated k' = s.invalidated k' :=
      Function.update_of_ne hne _ _
    rw [hsame]
    exact h k' rwa m hrwa hkey
  refine ⟨⟨?_, ?_, fun k' => ?_⟩, ⟨Nat.le_succ _, fun k' => ?_, fun _ _ h => h⟩⟩
  · refine hs.memo.drop (fun key set => hkept key set.since) ?_
    rintro key w hother ⟨b, hb, hsince⟩
    exact ⟨b, hb, hkept key b hother hsince⟩
  · intro w work hw
    obtain ⟨hborn, hset⟩ := hs.works w work hw
    exact ⟨Nat.le_succ_of_le hborn, hset⟩
  · by_cases hk : k' = k
    · subst hk
      simp [Store.invalidateForCollection]
    · simpa [Store.invalidateForCollection, hk] using Nat.le_succ_of_le (hs.ticks k')
  · by_cases hk : k' = k
    · subst hk
      simpa [Store.invalidateForCollection] using Nat.le_succ_of_le (hs.ticks k')
    · simp [Store.invalidateForCollection, hk]

end Steps

section Reads
variable {F : Type} {N : Numbers F} {hash : Cards.BucketPayload → JsStr} {env : Env}
  {cfg : MerkleConfig} {K : Store → Prop}

abbrev ReadTriple {α : Type} (K : Store → Prop) (p : M F α) (Q : α → Store → Prop) : Prop :=
  Triple (exec (F := F)) FreshFill freshness K p Q

theorem persistent_of_later (h : ∀ s t, Later s t → K s → K t) : freshness.Persistent K := by
  intro i s t hst hs
  rcases hst with hst | hst
  · exact h s t hst hs
  · exact h s t hst hs

theorem persistent_ticks (b : ℕ) : freshness.Persistent fun s => b ≤ s.ticks :=
  persistent_of_later fun _ _ hst hs => hs.trans hst.ticks

theorem persistent_bornAt (w b : ℕ) : freshness.Persistent fun s => s.BornAt w b :=
  persistent_of_later fun _ _ hst hs => hst.born w b hs

theorem persistent_invalidated (k : JsStr) (n : ℕ) :
    freshness.Persistent fun s => n ≤ s.invalidated k :=
  persistent_of_later fun _ _ hst hs => hs.trans (hst.invalidated k)

theorem quiet_exec {c : Cmd} (hc : Quiet c) {i : ℕ} {s u : Store} {x : World F} {r : Res F c}
    (h : exec i s x c = some (r, u)) : u = s := by
  cases c with
  | enter | settle | fill | invalidate => exact absurd hc id
  | join work =>
    obtain ⟨_, -, hr⟩ := Option.map_eq_some_iff.mp h
    exact (congrArg Prod.snd hr).symm
  | _ => exact (congrArg Prod.snd (Option.some.inj h)).symm

theorem triple_quiet {α : Type} {p : M F α} (hK : freshness.Persistent K) (hp : p.Issues Quiet) :
    ReadTriple K p fun _ => K := by
  refine triple_of_issues hK ?_ hp
  intro c hc i t x r u ht _ hu
  obtain rfl := quiet_exec hc hu
  exact ⟨ht, Later.refl u⟩

theorem quiet_belongsNow (tokenId : ℕ) (target : JsStr) (chainId : ℕ) :
    (belongsNow N hash tokenId target chainId).Issues Quiet := by
  refine Prog.issues_bind ⟨trivial, fun _ => Prog.issues_ret _⟩ fun uri => ?_
  split_ifs
  · refine Prog.issues_bind ⟨trivial, fun _ => Prog.issues_ret _⟩ fun json => ?_
    split <;> exact Prog.issues_ret _
  · exact Prog.issues_ret _

theorem quiet_belongsFrom (tokenId : ℕ) (target : JsStr) (chainId left attempt : ℕ) :
    (belongsFrom N hash tokenId target chainId left attempt).Issues Quiet := by
  induction left generalizing attempt with
  | zero => exact Prog.issues_ret _
  | succ left ih =>
    refine Prog.issues_bind ?_ fun _ => ?_
    · unfold pause
      split_ifs
      · exact Prog.issues_call trivial
      · exact Prog.issues_ret _
    · refine Prog.issues_settle (quiet_belongsNow tokenId target chainId) fun r => ?_
      cases r with
      | ok b => exact Prog.issues_ret _
      | error e => exact ih (attempt + 1)

theorem quiet_matchedOf (target : JsStr) (chainId : ℕ) (ids : List ℕ) :
    (matchedOf N hash target chainId ids).Issues Quiet := by
  induction ids with
  | nil => exact Prog.issues_ret _
  | cons tokenId ids ih =>
    refine Prog.issues_bind (quiet_belongsFrom tokenId target chainId _ _) fun flag => ?_
    exact Prog.issues_bind ih fun rest => Prog.issues_ret _

theorem quiet_matchedOfChunks (target : JsStr) (chainId : ℕ) (chunks : List (List ℕ)) :
    (matchedOfChunks N hash target chainId chunks).Issues Quiet := by
  induction chunks with
  | nil => exact Prog.issues_ret _
  | cons chunk chunks ih =>
    refine Prog.issues_bind (quiet_matchedOf target chainId chunk) fun matched => ?_
    exact Prog.issues_bind ih fun rest => Prog.issues_ret _

theorem since_of_stamped {α : Type} {r : Except HttpError α} {n : ℕ} {v : Stamped α}
    (h : r.map (fun a => (⟨a, n⟩ : Stamped α)) = .ok v) : v.since = n := by
  cases r with
  | ok a => exact (congrArg Stamped.since (Except.ok.inj h)).symm
  | error e => cases h

/-- A set is as new as the moment at which its computation was started. -/
theorem triple_scan (b : ℕ) (target : JsStr) (chainId : ℕ) :
    ReadTriple (fun s => b ≤ s.ticks)
      (scanMintedTokenIdsForCollectionKey N hash cfg target chainId) fun set _ => b ≤ set.since := by
  refine triple_bind (F := fun v _ => b ≤ v.since) ?_ fun liveIds => ?_
  · refine triple_call (persistent_ticks b) fun i t ht hb _ x r u hu => ?_
    obtain ⟨rfl, rfl⟩ := Prod.mk.inj (Option.some.inj hu)
    exact ⟨ht, Later.refl t, fun v hv => (since_of_stamped hv).symm ▸ hb⟩
  · split_ifs
    · exact triple_ok fun _ hb => hb
    · refine triple_bind (triple_quiet (persistent_const _) (quiet_matchedOfChunks _ _ _))
        fun matched => ?_
      exact triple_ok fun _ hb => hb

theorem triple_resolve (b : ℕ) (k : JsStr) (chainId : ℕ) (bypassCache : Bool) :
    ReadTriple (fun s => b ≤ s.ticks) (resolveMerkleTokenIds N hash cfg k chainId bypassCache)
      fun set _ => b ≤ set.since := by
  unfold resolveMerkleTokenIds
  split_ifs
  · refine triple_seq (F := fun v _ => b ≤ v.since) (persistent_ticks b) ?_ fun registry => ?_
    · refine triple_call (persistent_ticks b) fun i t ht hb _ x r u hu => ?_
      obtain ⟨rfl, rfl⟩ := Prod.mk.inj (Option.some.inj hu)
      exact ⟨ht, Later.refl t, fun v hv => (since_of_stamped hv).symm ▸ hb⟩
    · split_ifs
      · refine triple_bind (F := fun _ _ => b ≤ registry.since) ?_ fun scanned => ?_
        · have hfresh : ReadTriple (fun s => b ≤ s.ticks)
              (scanMintedTokenIdsForCollectionKey N hash cfg k chainId) fun set _ => b ≤ set.since :=
            triple_scan b k chainId
          have hscan := triple_frame (persistent_const (b ≤ registry.since)) hfresh
          exact triple_conseq hscan (fun s hs => ⟨hs.2, hs.1⟩) fun _ _ h => h.2
        · exact triple_ok fun _ hb => hb
      · exact triple_ok fun _ hb => hb.1
  · exact triple_scan b k chainId

theorem triple_settle_work {work b : ℕ} {key : JsStr} {outcome : Except HttpError TokenSet} :
    ReadTriple (F := F) (fun s => (∀ set, outcome = .ok set → b ≤ set.since) ∧ s.BornAt work b)
      (perform (.settle work key outcome)) fun _ s => s.BornAt work b := by
  refine triple_call (persistent_and (persistent_const _) (persistent_bornAt work b))
    fun i t ht hb _ x r u hu => ?_
  obtain ⟨rfl, rfl⟩ := Prod.mk.inj (Option.some.inj hu)
  have hkept : Sound (t.settle work key outcome) ∧ Later t (t.settle work key outcome) :=
    settle_keeps ht hb.2 hb.1
  obtain ⟨hsound, hlater⟩ := hkept
  exact ⟨hsound, hlater, fun _ _ => hlater.born work b hb.2⟩

theorem triple_join (work b : ℕ) :
    ReadTriple (F := F) (fun s => s.BornAt work b) (.call (.join work) .ret)
      fun set _ => b ≤ set.since := by
  refine triple_call (persistent_bornAt work b) fun i t ht hb _ x r u hu => ?_
  obtain ⟨r', hr', heq⟩ := Option.map_eq_some_iff.mp hu
  obtain ⟨rfl, rfl⟩ := Prod.mk.inj heq
  refine ⟨ht, Later.refl t, fun set hset => ?_⟩
  obtain ⟨work', hwork', rfl⟩ := hb
  rw [hwork'] at hr'
  exact (ht.works work work' hwork').2 set (hset ▸ hr')

variable {k rwa : JsStr} {m n : ℕ}

theorem triple_ownWork {work b : ℕ} (hrwa : isAddress rwa = true) (chainId : ℕ)
    (bypassCache : Bool) :
    ReadTriple (fun s => s.BornAt work b ∧ b ≤ s.ticks)
      (ownWork N hash cfg k (cacheKeyOf k rwa m) chainId bypassCache work)
      fun set _ => b ≤ set.since := by
  have hresolve : ReadTriple (fun s => s.BornAt work b ∧ b ≤ s.ticks)
      (resolveMerkleTokenIds N hash cfg k chainId bypassCache)
      (fun set s => b ≤ set.since ∧ s.BornAt work b) := by
    refine triple_conseq (triple_frame (persistent_bornAt work b)
      (triple_resolve b k chainId bypassCache)) (fun s hs => ⟨hs.2, hs.1⟩) fun _ _ h => h
  refine triple_bind (F := fun _ s => s.BornAt work b) ?_ fun _ => ?_
  · refine triple_settle (persistent_and (persistent_bornAt work b) (persistent_ticks b)) hresolve
      (fun set => ?_) fun e => ?_
    · refine triple_conseq triple_settle_work (fun s hs => ⟨fun set' hset' => ?_, hs.2⟩)
        fun _ _ h => h
      obtain rfl := Except.ok.inj hset'
      exact hs.1
    · refine triple_conseq triple_settle_work (fun s hs => ⟨fun set hset => ?_, hs.1⟩)
        fun _ _ h => h
      cases hset
  · refine triple_bind (triple_join work b) fun set => ?_
    split_ifs
    · exact triple_ok fun _ hb => hb
    · refine triple_bind (F := fun _ _ => b ≤ set.since) ?_ fun _ => triple_ok fun _ hb => hb
      refine triple_call (persistent_const _) fun i t ht hb hok x r u hu => ?_
      obtain ⟨rfl, rfl⟩ := Prod.mk.inj (Option.some.inj hu)
      obtain ⟨hsound, hlater⟩ := fill_keeps (m := m) ht hrwa hok (x.now + cfg.cacheTtlMs)
      exact ⟨hsound, hlater, fun _ _ => hb⟩

/-- A read that starts after the invalidation number `n` of its collection gets newer data. -/
theorem triple_merkleEligibleTokenIds (options : Options) :
    ReadTriple (fun s => n ≤ s.invalidated k) (merkleEligibleTokenIds N hash env cfg k options)
      fun set _ => n ≤ set.since := by
  have hinvalidated := persistent_invalidated k n
  refine triple_seq (F := fun rwa _ => isAddress rwa = true) hinvalidated
    (triple_ret fun rwa hrwa _ _ => isAddress_of_contractAddress hrwa) fun rwa => ?_
  have hpersistent := persistent_and (persistent_const (isAddress rwa = true)) hinvalidated
  refine triple_bind (triple_quiet hpersistent ⟨trivial, fun _ => Prog.issues_ret _⟩) fun m => ?_
  refine triple_bind (F := fun e s => isAddress rwa = true ∧ e.After n s) ?_ fun e => ?_
  · refine triple_call hpersistent fun i t ht hn _ x r u hu => ?_
    obtain ⟨hsound, hlater, hafter⟩ := enter_spec ht x.now (k := k) (m := m) hn.1 options.bypassCache
    have heq := Option.some.inj hu
    obtain rfl : u = _ := (congrArg Prod.snd heq).symm
    obtain rfl : r = _ := (congrArg Prod.fst heq).symm
    refine ⟨hsound, hlater, fun e he => ?_⟩
    obtain rfl := Except.ok.inj he
    exact ⟨hn.1, hafter.mono hn.2⟩
  · cases e with
    | hit set => exact triple_ok fun _ h => h.2
    | joined w =>
      intro i s hs
      obtain ⟨-, b, hn, hborn, -⟩ := hs
      exact triple_conseq (triple_join w b) (fun _ h => h) (fun _ _ h => hn.trans h) i s hborn
    | started w =>
      intro i s hs
      obtain ⟨hrwa, b, hn, hborn⟩ := hs
      exact triple_conseq (triple_ownWork hrwa _ _) (fun _ h => h) (fun _ _ h => hn.trans h) i s hborn

end Reads

def NoStaleRead (r : Except HttpError (Option Reading)) : Prop :=
  ∀ reading, r = .ok (some reading) → reading.bypassCache = false →
    reading.start ≤ reading.set.since

theorem task_reads_fresh {F : Type} {N : Numbers F} {hash : Cards.BucketPayload → JsStr} {env : Env}
    {cfg : MerkleConfig} (call : Call) :
    ReadTriple (fun _ => True) (call.task N hash env cfg) fun r _ => NoStaleRead (.ok r) := by
  cases call with
  | merkleEligibleTokenIds collectionKey options =>
    refine triple_bind (F := fun n s => n ≤ s.invalidated (lower collectionKey)) ?_ fun n => ?_
    · refine triple_call (persistent_const _) fun i t ht _ _ x r u hu => ?_
      obtain ⟨rfl, rfl⟩ := Prod.mk.inj (Option.some.inj hu)
      refine ⟨ht, Later.refl t, fun n hn => ?_⟩
      obtain rfl := Except.ok.inj hn
      exact le_rfl
    · refine triple_bind (triple_merkleEligibleTokenIds options) fun set => ?_
      refine triple_ok fun s hs reading hreading _ => ?_
      obtain rfl := Option.some.inj (Except.ok.inj hreading)
      exact hs
  | invalidateForCollection collectionKey =>
    refine triple_bind (F := fun _ _ => True) ?_ fun _ => ?_
    · refine triple_call (persistent_const _) fun i t ht _ _ x r u hu => ?_
      obtain ⟨rfl, rfl⟩ := Prod.mk.inj (Option.some.inj hu)
      obtain ⟨hsound, hlater⟩ := invalidate_keeps ht (lower collectionKey)
      exact ⟨hsound, hlater, fun _ _ => trivial⟩
    · exact triple_ok fun s _ reading hreading _ => nomatch Except.ok.inj hreading

theorem sound_empty : Sound {} := by
  refine ⟨Memo.fresh_empty, fun w work hw => ?_, fun _ => le_rfl⟩
  cases hw

/-- In every run in which no set enters the cache that its collection's invalidation has overtaken, a
read gets no set of data from before the invalidations that had returned when it started. -/
theorem invalidation_effective {F : Type} {N : Numbers F} {hash : Cards.BucketPayload → JsStr}
    {env : Env} {cfg : MerkleConfig} {q : Pool Store Cmd (Res F) HttpError (Option Reading)}
    (hreach : Pool.Reach exec (Call.task N hash env cfg) FreshFill ⟨{}, []⟩ q) {i : ℕ}
    {r : Except HttpError (Option Reading)} (hi : q.tasks[i]? = some (.ret r)) : NoStaleRead r := by
  have hsafe : Pool.Safe exec FreshFill freshness (fun _ r _ => NoStaleRead r) q := by
    refine Pool.safe_reach (fun _ _ _ _ _ h => h) (fun call j s _ => ?_) hreach
      (Pool.safe_nil sound_empty)
    refine wp_mono (fun r t hr => ?_) (task_reads_fresh call j s trivial)
    cases r with
    | ok reading => exact hr reading rfl
    | error e => exact fun reading hreading => nomatch hreading
  exact hsafe.ended hi

section Runs

def watchedEnv : Env :=
  { defaultChainId := some 1, rwaAddresses := [(1, js "0x" ++ List.replicate 40 'c')] }

def plainHash : Cards.BucketPayload → JsStr := fun _ => []

def cardTask : Call → M ℕ (Option Reading) :=
  Call.task Cards.wholeNumbers plainHash watchedEnv {}

/-- Two tokens are minted, and the registry has one of them in the collection. -/
def world : World ℕ where
  totalMinted := .ok 2
  registry := .ok [js "7"]

def endings (q : Pool Store Cmd (Res ℕ) HttpError (Option Reading)) : List (Option (Option Reading)) :=
  q.tasks.map fun t => match t with
    | .ret (.ok reading) => some reading
    | _ => none

def read : Call := .merkleEligibleTokenIds (js "ab") {}

/-- A read fills the cache, the next one hits it, and one after the invalidation reads anew. -/
def readsThenInvalidates : List (Pool.Event Call (World ℕ)) :=
  .spawn read :: List.replicate 7 (.run 0 world) ++
    .spawn read :: List.replicate 3 (.run 1 world) ++
    [.spawn (.invalidateForCollection (js "AB")), .run 2 world] ++
    .spawn read :: List.replicate 7 (.run 3 world)

theorem invalidation_effective_readAgain : ∃ q,
    Pool.Reach exec cardTask FreshFill ⟨{}, []⟩ q ∧
      endings q = [some (some ⟨false, 0, ⟨[js "7"], 0⟩⟩), some (some ⟨false, 0, ⟨[js "7"], 0⟩⟩),
        some none, some (some ⟨false, 1, ⟨[js "7"], 1⟩⟩)] ∧
      ∀ (i : ℕ) (r : Except HttpError (Option Reading)),
        q.tasks[i]? = some (.ret r) → NoStaleRead r := by
  obtain ⟨q, hq, hends⟩ : ∃ q, Pool.Reach exec cardTask FreshFill ⟨{}, []⟩ q ∧
      endings q = [some (some ⟨false, 0, ⟨[js "7"], 0⟩⟩), some (some ⟨false, 0, ⟨[js "7"], 0⟩⟩),
        some none, some (some ⟨false, 1, ⟨[js "7"], 1⟩⟩)] :=
    Pool.exists_reach_of_runSchedule readsThenInvalidates endings (by decide +kernel)
  exact ⟨q, hq, hends, fun i r => invalidation_effective hq⟩

/-- The invalidation falls between the data read of the first reader and its cache write. -/
def overtakenFill : List (Pool.Event Call (World ℕ)) :=
  .spawn read :: List.replicate 4 (.run 0 world) ++
    [.spawn (.invalidateForCollection (js "AB")), .run 1 world] ++
    List.replicate 3 (.run 0 world) ++
    .spawn read :: List.replicate 3 (.run 2 world)

/-- The read that starts after the invalidation gets data from before it. -/
theorem stale_set_read_after_invalidation : ∃ q,
    Pool.Reach exec cardTask anyStep ⟨{}, []⟩ q ∧
      endings q = [some (some ⟨false, 0, ⟨[js "7"], 0⟩⟩), some none,
        some (some ⟨false, 1, ⟨[js "7"], 0⟩⟩)] ∧
      ¬ NoStaleRead (.ok (some ⟨false, 1, ⟨[js "7"], 0⟩⟩)) := by
  obtain ⟨q, hq, hends⟩ : ∃ q, Pool.Reach exec cardTask anyStep ⟨{}, []⟩ q ∧
      endings q = [some (some ⟨false, 0, ⟨[js "7"], 0⟩⟩), some none,
        some (some ⟨false, 1, ⟨[js "7"], 0⟩⟩)] :=
    Pool.exists_reach_of_runSchedule overtakenFill endings (by decide +kernel)
  exact ⟨q, hq, hends, fun h => absurd (h _ rfl rfl) (by decide)⟩

end Runs

end MerkleSet
