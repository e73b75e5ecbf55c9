import Tokenable.User.PrimaryWallet

/-!
# What a wallet sync leaves linked

`syncPrivyWallets` matches the rows with the profile once without regard to letter case and once by the
exact text. What it leaves is described on `Link`s, the part of a row that it decides by, and
`mirrors_iff` says for which rows and profiles the wallets mirror the profile.
-/

namespace Users
open Js Platform Async

/-- What the sync reads of a linked wallet. -/
structure Link where
  id : JsStr
  address : JsStr
  source : WalletSource
  deriving DecidableEq

def Link.key (l : Link) : JsStr := lower l.address

def UserWallet.link (w : UserWallet) : Link := ⟨w.id, w.walletAddress, w.source⟩

def Store.linksOf (s : Store) (userId : JsStr) : List Link := (s.walletsOf userId).map UserWallet.link

/-! ### The sync on links -/

section Links
variable (listed : List Link) (desired : List JsStr)

/-- The link that the first loop takes for the address: the last one with the same key. -/
def matchOf (address : JsStr) : Option Link :=
  listed.reverse.find? fun l => lower l.address = lower address

def matched : List JsStr := desired.filterMap fun a => (matchOf listed a).map Link.id

def Link.mark (ids : List JsStr) (l : Link) : Link :=
  if l.id ∈ ids then { l with source := .privySync } else l

def kept (l : Link) : Bool := l.address ∈ desired || l.source ≠ .privySync

def added : List JsStr := desired.filter fun a => (matchOf listed a).isNone

def leftOver : List Link := (listed.map (Link.mark (matched listed desired))).filter (kept desired)

def SyncOf (links : List Link) : Prop :=
  ∃ news : List Link, news.map Link.address = added listed desired ∧
    links.Perm (leftOver listed desired ++ news)

def Stays (l : Link) : Prop :=
  l.address ∈ desired ∨ (l.source ≠ .privySync ∧ ∀ a ∈ desired, matchOf listed a ≠ some l)

variable {listed desired}

theorem matchOf_eq_some {a : JsStr} {l : Link} (h : matchOf listed a = some l) :
    l ∈ listed ∧ l.key = lower a := by
  have hmem := List.mem_of_find?_eq_some h
  have hkey := List.find?_some h
  rw [decide_eq_true_eq] at hkey
  exact ⟨List.mem_reverse.mp hmem, hkey⟩

theorem matchOf_eq_none {a : JsStr} : matchOf listed a = none ↔ ∀ l ∈ listed, l.key ≠ lower a := by
  unfold matchOf
  rw [List.find?_eq_none]
  simp only [List.mem_reverse, decide_eq_true_eq]
  rfl

theorem matchOf_map {f : Link → Link} (hf : ∀ l, (f l).address = l.address) (a : JsStr) :
    matchOf (listed.map f) a = (matchOf listed a).map f := by
  unfold matchOf
  rw [← List.map_reverse, List.find?_map]
  congr 1
  apply congrArg (fun p => List.find? p listed.reverse)
  funext l
  rw [Function.comp_apply, hf]

@[simp] theorem mark_address (ids : List JsStr) (l : Link) : (l.mark ids).address = l.address := by
  unfold Link.mark
  split_ifs <;> rfl

@[simp] theorem mark_id (ids : List JsStr) (l : Link) : (l.mark ids).id = l.id := by
  unfold Link.mark
  split_ifs <;> rfl

@[simp] theorem mark_key (ids : List JsStr) (l : Link) : (l.mark ids).key = l.key := by
  unfold Link.key
  rw [mark_address]

theorem matched_map {f : Link → Link} (hid : ∀ l, (f l).id = l.id)
    (hf : ∀ l, (f l).address = l.address) : matched (listed.map f) desired = matched listed desired := by
  unfold matched
  apply List.filterMap_congr
  intro a _
  rw [matchOf_map hf, Option.map_map]
  congr 1
  funext l
  exact hid l

theorem added_map {f : Link → Link} (hf : ∀ l, (f l).address = l.address) :
    added (listed.map f) desired = added listed desired := by
  unfold added
  apply List.filter_congr
  intro a _
  rw [matchOf_map hf, Option.isNone_map]

theorem mark_mark (ids ids' : List JsStr) (l : Link) :
    (l.mark ids).mark ids' = l.mark (ids ++ ids') := by
  unfold Link.mark
  by_cases h : l.id ∈ ids
  · by_cases h' : l.id ∈ ids'
    · simp [h, h']
    · simp [h, h']
  · by_cases h' : l.id ∈ ids'
    · simp [h, h']
    · simp [h, h']

/-- The addresses of the listed links and those that are added. -/
theorem nodup_append_added {addresses : List JsStr}
    (hsub : addresses.Sublist (listed.map Link.address))
    (haddresses : (listed.map Link.address).Nodup) (hnodup : desired.Nodup) :
    (addresses ++ added listed desired).Nodup := by
  rw [List.nodup_append]
  refine ⟨haddresses.sublist hsub, hnodup.filter _, ?_⟩
  rintro a ha b hb rfl
  obtain ⟨l, hl, rfl⟩ := List.mem_map.mp (hsub.subset ha)
  have hnone := Option.isNone_iff_eq_none.mp (List.mem_filter.mp hb).2
  exact matchOf_eq_none.mp hnone l hl rfl

theorem addresses_map_mark (ids : List JsStr) (links : List Link) :
    (links.map (Link.mark ids)).map Link.address = links.map Link.address := by
  rw [List.map_map]
  exact List.map_congr_left fun l _ => mark_address _ l

theorem nodup_addresses_of_syncOf {links : List Link} (haddresses : (listed.map Link.address).Nodup)
    (hnodup : desired.Nodup) (h : SyncOf listed desired links) : (links.map Link.address).Nodup := by
  obtain ⟨news, hnews, hperm⟩ := h
  have hleft : (leftOver listed desired).map Link.address |>.Sublist (listed.map Link.address) := by
    rw [← addresses_map_mark (matched listed desired) listed]
    exact List.filter_sublist.map _
  rw [(hperm.map Link.address).nodup_iff, List.map_append, hnews]
  exact nodup_append_added hleft haddresses hnodup

variable (hids : (listed.map Link.id).Nodup)
include hids

theorem mem_matched {l : Link} (hl : l ∈ listed) :
    l.id ∈ matched listed desired ↔ ∃ a ∈ desired, matchOf listed a = some l := by
  unfold matched
  rw [List.mem_filterMap]
  constructor
  · rintro ⟨a, ha, hid⟩
    obtain ⟨m, hm, hid⟩ := Option.map_eq_some_iff.mp hid
    have hml : m = l := List.inj_on_of_nodup_map hids (matchOf_eq_some hm).1 hl hid
    exact ⟨a, ha, hml ▸ hm⟩
  · rintro ⟨a, ha, hm⟩
    exact ⟨a, ha, by rw [hm]; rfl⟩

theorem kept_mark {l : Link} (hl : l ∈ listed) :
    kept desired (l.mark (matched listed desired)) = true ↔ Stays listed desired l := by
  unfold kept Stays
  rw [Bool.or_eq_true, decide_eq_true_eq, mark_address]
  apply or_congr Iff.rfl
  unfold Link.mark
  by_cases hmem : l.id ∈ matched listed desired
  · rw [if_pos hmem]
    obtain ⟨a, ha, hm⟩ := (mem_matched hids hl).mp hmem
    constructor
    · intro h
      simp at h
    · rintro ⟨-, hno⟩
      exact absurd hm (hno a ha)
  · rw [if_neg hmem]
    have hno : ∀ a ∈ desired, matchOf listed a ≠ some l := by
      intro a ha hm
      exact hmem ((mem_matched hids hl).mpr ⟨a, ha, hm⟩)
    simp only [ne_eq, decide_not, Bool.not_eq_true', decide_eq_false_iff_not]
    constructor
    · intro h
      exact ⟨h, hno⟩
    · intro h
      exact h.1

theorem mem_keys_leftOver {k : JsStr} : k ∈ (leftOver listed desired).map Link.key ↔
    ∃ l ∈ listed, Stays listed desired l ∧ l.key = k := by
  unfold leftOver
  rw [List.mem_map]
  constructor
  · rintro ⟨m, hm, rfl⟩
    obtain ⟨hm, hkept⟩ := List.mem_filter.mp hm
    obtain ⟨l, hl, rfl⟩ := List.mem_map.mp hm
    exact ⟨l, hl, (kept_mark hids hl).mp hkept, (mark_key _ l).symm⟩
  · rintro ⟨l, hl, hstays, rfl⟩
    refine ⟨l.mark (matched listed desired), List.mem_filter.mpr ⟨?_, ?_⟩, mark_key _ l⟩
    · exact List.mem_map_of_mem hl
    · exact (kept_mark hids hl).mpr hstays

theorem nodup_keys_leftOver : ((leftOver listed desired).map Link.key).Nodup ↔
    ∀ l ∈ listed, Stays listed desired l → ∀ m ∈ listed, Stays listed desired m → l.key = m.key →
      l = m := by
  have hkeys : (leftOver listed desired).map Link.key =
      (listed.filter fun l => kept desired (l.mark (matched listed desired))).map Link.key := by
    unfold leftOver
    rw [List.filter_map, List.map_map]
    apply List.map_congr_left
    intro l _
    exact mark_key _ l
  have hnodup : (listed.filter fun l => kept desired (l.mark (matched listed desired))).Nodup :=
    (List.Nodup.of_map _ hids).filter _
  rw [hkeys, List.nodup_map_iff_inj_on hnodup]
  constructor
  · intro h l hl hlstays m hm hmstays
    exact h l (List.mem_filter.mpr ⟨hl, (kept_mark hids hl).mpr hlstays⟩) m
      (List.mem_filter.mpr ⟨hm, (kept_mark hids hm).mpr hmstays⟩)
  · intro h l hl m hm
    obtain ⟨hl, hlkept⟩ := List.mem_filter.mp hl
    obtain ⟨hm, hmkept⟩ := List.mem_filter.mp hm
    exact h l hl ((kept_mark hids hl).mp hlkept) m hm ((kept_mark hids hm).mp hmkept)

end Links

section Mirror
variable {listed listed' links links' : List Link} {desired : List JsStr}

/-- The links are the addresses of the profile and the ones that another source has linked, each
once. -/
structure Mirrored (listed : List Link) (desired : List JsStr) (links : List Link) : Prop where
  nodup : (links.map Link.key).Nodup
  mem : ∀ k, k ∈ links.map Link.key ↔
    (∃ a ∈ desired, lower a = k) ∨ ∃ l ∈ listed, l.key = k ∧ l.source ≠ .privySync

theorem mirrored_of_perm (hperm : listed.Perm listed') :
    Mirrored listed desired links ↔ Mirrored listed' desired links := by
  have hrows : ∀ k, (∃ l ∈ listed, l.key = k ∧ l.source ≠ .privySync) ↔
      ∃ l ∈ listed', l.key = k ∧ l.source ≠ .privySync := by
    intro k
    apply exists_congr
    intro l
    rw [hperm.mem_iff]
  constructor
  · intro h
    exact ⟨h.nodup, fun k => (h.mem k).trans (or_congr_right (hrows k))⟩
  · intro h
    exact ⟨h.nodup, fun k => (h.mem k).trans (or_congr_right (hrows k).symm)⟩

/-- An address of the profile that is linked is linked in its checksummed form, and any other
spelling of it is from Privy or the one that is patched; outside the profile no two links of other
sources differ in letter case alone. -/
structure SpellingsAgree (listed : List Link) (desired : List JsStr) : Prop where
  checksummed : ∀ a ∈ desired, ∀ l ∈ listed, l.key = lower a →
    (∃ m ∈ listed, m.address = a) ∧
      (l.address = a ∨ l.source = .privySync ∨ matchOf listed a = some l)
  apart : ∀ l ∈ listed, ∀ m ∈ listed, l.source ≠ .privySync → m.source ≠ .privySync →
    l.key = m.key → (∀ a ∈ desired, lower a ≠ l.key) → l = m

def OneSpelling (desired : List JsStr) : Prop :=
  ∀ a ∈ desired, ∀ b ∈ desired, lower a = lower b → a = b

theorem stays_of_outside {l : Link} (hsource : l.source ≠ .privySync)
    (hout : ∀ a ∈ desired, lower a ≠ l.key) : Stays listed desired l := by
  refine .inr ⟨hsource, fun a ha hm => hout a ha ?_⟩
  exact (matchOf_eq_some hm).2.symm

theorem mem_keys_of_syncOf (hids : (listed.map Link.id).Nodup) (h : SyncOf listed desired links)
    {k : JsStr} : k ∈ links.map Link.key ↔ (∃ l ∈ listed, Stays listed desired l ∧ l.key = k) ∨
      ∃ a ∈ desired, matchOf listed a = none ∧ lower a = k := by
  obtain ⟨news, hnews, hperm⟩ := h
  have hadded : news.map Link.key = (added listed desired).map lower := by
    rw [← hnews, List.map_map]
    rfl
  rw [(hperm.map Link.key).mem_iff, List.map_append, List.mem_append, mem_keys_leftOver hids, hadded,
    List.mem_map]
  apply or_congr Iff.rfl
  unfold added
  constructor
  · rintro ⟨a, ha, hk⟩
    obtain ⟨ha, hnone⟩ := List.mem_filter.mp ha
    exact ⟨a, ha, Option.isNone_iff_eq_none.mp hnone, hk⟩
  · rintro ⟨a, ha, hnone, hk⟩
    exact ⟨a, List.mem_filter.mpr ⟨ha, Option.isNone_iff_eq_none.mpr hnone⟩, hk⟩

theorem nodup_keys_of_syncOf (hids : (listed.map Link.id).Nodup) (hnodup : desired.Nodup)
    (hone : OneSpelling desired) (h : SyncOf listed desired links) :
    (links.map Link.key).Nodup ↔ ∀ l ∈ listed, Stays listed desired l → ∀ m ∈ listed,
      Stays listed desired m → l.key = m.key → l = m := by
  obtain ⟨news, hnews, hperm⟩ := h
  have hadded : news.map Link.key = (added listed desired).map lower := by
    rw [← hnews, List.map_map]
    rfl
  have haddedNodup : ((added listed desired).map lower).Nodup := by
    have hfilter : (added listed desired).Nodup := hnodup.filter _
    rw [List.nodup_map_iff_inj_on hfilter]
    intro a ha b hb
    exact hone a (List.mem_of_mem_filter ha) b (List.mem_of_mem_filter hb)
  have hdisjoint : ∀ a ∈ (leftOver listed desired).map Link.key,
      ∀ b ∈ (added listed desired).map lower, a ≠ b := by
    rintro k hk b hb rfl
    obtain ⟨l, hl, -, hkey⟩ := (mem_keys_leftOver hids).mp hk
    obtain ⟨a, ha, hak⟩ := List.mem_map.mp hb
    have hnone := Option.isNone_iff_eq_none.mp (List.mem_filter.mp ha).2
    exact matchOf_eq_none.mp hnone l hl (hkey.trans hak.symm)
  rw [(hperm.map Link.key).nodup_iff, List.map_append, hadded, List.nodup_append,
    nodup_keys_leftOver hids]
  constructor
  · intro hall
    exact hall.1
  · intro hinj
    exact ⟨hinj, haddedNodup, hdisjoint⟩

/-- What is left to say of one sync. -/
theorem mirrored_iff (hids : (listed.map Link.id).Nodup) (hnodup : desired.Nodup)
    (hone : OneSpelling desired) (h : SyncOf listed desired links) :
    Mirrored listed desired links ↔
      (∀ l ∈ listed, Stays listed desired l → ∀ m ∈ listed, Stays listed desired m →
        l.key = m.key → l = m) ∧
      ∀ a ∈ desired, (∃ l ∈ listed, l.key = lower a) →
        ∃ l ∈ listed, Stays listed desired l ∧ l.key = lower a := by
  have hmem := fun k => mem_keys_of_syncOf (k := k) hids h
  have hinj := nodup_keys_of_syncOf hids hnodup hone h
  constructor
  · intro hmirror
    refine ⟨hinj.mp hmirror.nodup, fun a ha hlinked => ?_⟩
    have hwanted := (hmirror.mem (lower a)).mpr (.inl ⟨a, ha, rfl⟩)
    rcases (hmem _).mp hwanted with hstays | ⟨b, -, hnone, hkey⟩
    · exact hstays
    · obtain ⟨l, hl, hlkey⟩ := hlinked
      exact absurd (hlkey.trans hkey.symm) (matchOf_eq_none.mp hnone l hl)
  · rintro ⟨hunique, hcovers⟩
    refine ⟨hinj.mpr hunique, fun k => ?_⟩
    rw [hmem]
    constructor
    · rintro (⟨l, hl, hstays, hkey⟩ | ⟨a, ha, -, hkey⟩)
      · rcases hstays with hin | ⟨hsource, -⟩
        · exact .inl ⟨l.address, hin, hkey⟩
        · exact .inr ⟨l, hl, hkey, hsource⟩
      · exact .inl ⟨a, ha, hkey⟩
    · intro hwanted
      by_cases hdesired : ∃ a ∈ desired, lower a = k
      · obtain ⟨a, ha, hkey⟩ := hdesired
        cases hfound : matchOf listed a with
        | none => exact .inr ⟨a, ha, hfound, hkey⟩
        | some l =>
          obtain ⟨hl, hlkey⟩ := matchOf_eq_some hfound
          rw [← hkey]
          exact .inl (hcovers a ha ⟨l, hl, hlkey⟩)
      · obtain ⟨l, hl, hkey, hsource⟩ := hwanted.resolve_left hdesired
        refine .inl ⟨l, hl, stays_of_outside hsource fun a ha hak => hdesired ?_, hkey⟩
        exact ⟨a, ha, hak.trans hkey⟩

/-- Where the spellings agree, an address of the profile stays in its checksummed form only. -/
theorem SpellingsAgree.stays_iff (hagree : SpellingsAgree listed desired)
    (hone : OneSpelling desired) {a : JsStr} (ha : a ∈ desired) {l : Link} (hl : l ∈ listed)
    (hkey : l.key = lower a) : Stays listed desired l ↔ l.address = a := by
  constructor
  · rintro (hin | ⟨hsource, hno⟩)
    · exact hone _ hin a ha hkey
    · rcases (hagree.checksummed a ha l hl hkey).2 with haddress | hprivy | hmatch
      · exact haddress
      · exact absurd hprivy hsource
      · exact absurd hmatch (hno a ha)
  · intro haddress
    exact .inl (haddress ▸ ha)

theorem SpellingsAgree.mirrored (hagree : SpellingsAgree listed desired)
    (hids : (listed.map Link.id).Nodup) (haddresses : (listed.map Link.address).Nodup)
    (hnodup : desired.Nodup) (hone : OneSpelling desired) (h : SyncOf listed desired links) :
    Mirrored listed desired links := by
  rw [mirrored_iff hids hnodup hone h]
  constructor
  · intro l hl hlstays m hm hmstays hkeys
    by_cases hdesired : ∃ a ∈ desired, lower a = l.key
    · obtain ⟨a, ha, hkey⟩ := hdesired
      have hla := (hagree.stays_iff hone ha hl hkey.symm).mp hlstays
      have hma := (hagree.stays_iff hone ha hm (hkeys.symm.trans hkey.symm)).mp hmstays
      exact List.inj_on_of_nodup_map haddresses hl hm (hla.trans hma.symm)
    · have hout : ∀ a ∈ desired, lower a ≠ l.key := fun a ha hkey => hdesired ⟨a, ha, hkey⟩
      have hsource : ∀ n : Link, n.key = l.key → Stays listed desired n → n.source ≠ .privySync := by
        rintro n hn (hin | ⟨hsource, -⟩)
        · exact absurd hn (hout _ hin)
        · exact hsource
      exact hagree.apart l hl m hm (hsource l rfl hlstays) (hsource m hkeys.symm hmstays) hkeys hout
  · rintro a ha ⟨l, hl, hkey⟩
    obtain ⟨⟨m, hm, haddress⟩, -⟩ := hagree.checksummed a ha l hl hkey
    exact ⟨m, hm, .inl (haddress ▸ ha), congrArg lower haddress⟩

/-- What stays through a sync where the spellings agree stays through the next one. -/
theorem SpellingsAgree.stays_next (hagree : SpellingsAgree listed desired)
    (hids : (listed.map Link.id).Nodup) (hone : OneSpelling desired)
    (h : SyncOf listed desired links) {l : Link} (hl : l ∈ links) : Stays listed' desired l := by
  obtain ⟨news, hnews, hperm⟩ := h
  rcases List.mem_append.mp (hperm.mem_iff.mp hl) with hleft | hnew
  · obtain ⟨hmark, hkept⟩ := List.mem_filter.mp hleft
    obtain ⟨m, hm, rfl⟩ := List.mem_map.mp hmark
    have hstays := (kept_mark hids hm).mp hkept
    by_cases hdesired : ∃ a ∈ desired, lower a = m.key
    · obtain ⟨a, ha, hkey⟩ := hdesired
      have haddress := (hagree.stays_iff hone ha hm hkey.symm).mp hstays
      left
      rw [mark_address, haddress]
      exact ha
    · have hout : ∀ a ∈ desired, lower a ≠ m.key := fun a ha hkey => hdesired ⟨a, ha, hkey⟩
      rcases hstays with hin | ⟨hsource, hno⟩
      · exact absurd rfl (hout _ hin)
      · have hunmarked : m.mark (matched listed desired) = m := by
          unfold Link.mark
          rw [if_neg]
          intro hmem
          obtain ⟨a, ha, hmatch⟩ := (mem_matched hids hm).mp hmem
          exact hno a ha hmatch
        rw [hunmarked]
        exact stays_of_outside hsource hout
  · have hin : l.address ∈ added listed desired := hnews ▸ List.mem_map_of_mem hnew
    exact .inl (List.mem_of_mem_filter hin)

/-- Where the spellings agree, a second sync links and unlinks nothing. -/
theorem SpellingsAgree.settled (hagree : SpellingsAgree listed desired)
    (hids : (listed.map Link.id).Nodup) (hone : OneSpelling desired)
    (h : SyncOf listed desired links) (hmirror : Mirrored listed desired links)
    (hids' : (listed'.map Link.id).Nodup) (hlisted' : listed'.Perm links)
    (h' : SyncOf listed' desired links') (k : JsStr) :
    k ∈ links'.map Link.key ↔ k ∈ links.map Link.key := by
  rw [mem_keys_of_syncOf hids' h', List.mem_map]
  constructor
  · rintro (⟨l, hl, -, hkey⟩ | ⟨a, ha, hnone, -⟩)
    · exact ⟨l, hlisted'.mem_iff.mp hl, hkey⟩
    · obtain ⟨l, hl, hkey⟩ := List.mem_map.mp ((hmirror.mem (lower a)).mpr (.inl ⟨a, ha, rfl⟩))
      exact absurd hkey (matchOf_eq_none.mp hnone l (hlisted'.mem_iff.mpr hl))
  · rintro ⟨l, hl, hkey⟩
    exact .inl ⟨l, hlisted'.mem_iff.mpr hl, hagree.stays_next hids hone h hl, hkey⟩

/-- An address of the profile that is linked only in another spelling is unlinked by the second
sync. -/
theorem address_of_settled (hids : (listed.map Link.id).Nodup) (hone : OneSpelling desired)
    (h : SyncOf listed desired links) (hmirror : Mirrored listed desired links)
    (hids' : (listed'.map Link.id).Nodup) (hlisted' : listed'.Perm links)
    (h' : SyncOf listed' desired links')
    (hsettled : ∀ k, k ∈ links'.map Link.key ↔ k ∈ links.map Link.key) {a : JsStr}
    (ha : a ∈ desired) {m : Link} (hm : m ∈ listed) (hstays : Stays listed desired m)
    (hkey : m.key = lower a) : m.address = a := by
  by_contra hother
  have hsource : m.source ≠ .privySync ∧ ∀ b ∈ desired, matchOf listed b ≠ some m := by
    apply hstays.resolve_left
    intro hin
    exact hother (hone _ hin a ha hkey)
  have hlinked : m ∈ links := by
    obtain ⟨news, -, hperm⟩ := h
    have hunmarked : m.mark (matched listed desired) = m := by
      unfold Link.mark
      rw [if_neg]
      intro hmem
      obtain ⟨b, hb, hmatch⟩ := (mem_matched hids hm).mp hmem
      exact hsource.2 b hb hmatch
    rw [hperm.mem_iff, List.mem_append]
    left
    refine List.mem_filter.mpr ⟨List.mem_map.mpr ⟨m, hm, hunmarked⟩, ?_⟩
    have hkept := (kept_mark hids hm).mpr hstays
    rw [hunmarked] at hkept
    exact hkept
  have honly : ∀ l ∈ links, l.key = lower a → l = m := by
    intro l hl hlkey
    exact List.inj_on_of_nodup_map hmirror.nodup hl hlinked (hlkey.trans hkey.symm)
  have hmatch : matchOf listed' a = some m := by
    cases hfound : matchOf listed' a with
    | none => exact absurd hkey (matchOf_eq_none.mp hfound m (hlisted'.mem_iff.mpr hlinked))
    | some l =>
      obtain ⟨hl, hlkey⟩ := matchOf_eq_some hfound
      rw [honly l (hlisted'.mem_iff.mp hl) hlkey]
  have hnext := (hsettled (lower a)).mpr (List.mem_map.mpr ⟨m, hlinked, hkey⟩)
  rcases (mem_keys_of_syncOf hids' h').mp hnext with ⟨l, hl, hlstays, hlkey⟩ | ⟨b, hb, hnone, hbkey⟩
  · rw [honly l (hlisted'.mem_iff.mp hl) hlkey] at hlstays
    rcases hlstays with hin | ⟨-, hno⟩
    · exact hother (hone _ hin a ha hkey)
    · exact hno a ha hmatch
  · rw [hone b hb a ha hbkey, hmatch] at hnone
    cases hnone

/-- Two syncs mirror the profile and settle exactly when the spellings agree. -/
theorem spellingsAgree_iff (hids : (listed.map Link.id).Nodup)
    (haddresses : (listed.map Link.address).Nodup) (hnodup : desired.Nodup)
    (hone : OneSpelling desired) (h : SyncOf listed desired links)
    (hids' : (listed'.map Link.id).Nodup) (hlisted' : listed'.Perm links)
    (h' : SyncOf listed' desired links') :
    (Mirrored listed desired links ∧ ∀ k, k ∈ links'.map Link.key ↔ k ∈ links.map Link.key) ↔
      SpellingsAgree listed desired := by
  constructor
  · rintro ⟨hmirror, hsettled⟩
    obtain ⟨hunique, hcovers⟩ := (mirrored_iff hids hnodup hone h).mp hmirror
    constructor
    · intro a ha l hl hkey
      obtain ⟨m, hm, hstays, hmkey⟩ := hcovers a ha ⟨l, hl, hkey⟩
      have haddress := address_of_settled hids hone h hmirror hids' hlisted' h' hsettled ha hm hstays
        hmkey
      refine ⟨⟨m, hm, haddress⟩, ?_⟩
      by_contra hnone
      rw [not_or, not_or] at hnone
      obtain ⟨hother, hsource, hunmatched⟩ := hnone
      have hlstays : Stays listed desired l := by
        refine .inr ⟨hsource, fun b hb hmatch => hunmatched ?_⟩
        have hba := hone b hb a ha ((matchOf_eq_some hmatch).2.symm.trans hkey)
        exact hba ▸ hmatch
      have hlm := hunique l hl hlstays m hm hstays (hkey.trans hmkey.symm)
      exact hother (hlm ▸ haddress)
    · intro l hl m hm hlsource hmsource hkeys hout
      refine hunique l hl (stays_of_outside hlsource hout) m hm (stays_of_outside hmsource ?_) hkeys
      intro a ha hkey
      exact hout a ha (hkey.trans hkeys.symm)
  · intro hagree
    have hmirror := hagree.mirrored hids haddresses hnodup hone h
    exact ⟨hmirror, hagree.settled hids hone h hmirror hids' hlisted' h'⟩

end Mirror

/-! ### The sync on the tables -/

/-- The answer is not an error of the database. -/
def succeeded : (c : Cmd) → Res c → Bool
  | .insertUser _, r => r.isOk
  | .saveUser .., r => r.isOk
  | .insertWallet _, r => r.isOk
  | .insertProvider _, r => r.isOk
  | .saveProvider _, r => r.isOk
  | _, _ => true

def Succeeds : AllowedStep Store Tick Cmd := fun s x c => succeeded c (exec s x c).1 = true

instance (s : Store) (x : Tick) (c : Cmd) : Decidable (Succeeds s x c) :=
  inferInstanceAs (Decidable (_ = true))

section Rows
variable {s t : Store} {userId : JsStr} {w row : UserWallet}

theorem ids_linksOf (s : Store) (userId : JsStr) : ((s.linksOf userId).map Link.id).Nodup := by
  have hids : (s.linksOf userId).map Link.id = (s.walletsOf userId).map UserWallet.id := by
    unfold Store.linksOf
    rw [List.map_map]
    rfl
  rw [hids]
  exact s.wallets.nodup.sublist (List.filter_sublist.map _)

theorem linksOf_update (hrow : s.wallets.get w.id = some row) (hsame : w.userId = row.userId) :
    (s.saveWallet w).linksOf userId =
      (s.linksOf userId).map fun l => if l.id = w.id then w.link else l := by
  unfold Store.linksOf
  rw [walletsOf_update hrow hsame, List.map_map, List.map_map]
  apply List.map_congr_left
  intro y _
  rw [Function.comp_apply, Function.comp_apply]
  by_cases hid : y.id = w.id
  · rw [if_pos hid]
    exact (if_pos hid).symm
  · rw [if_neg hid]
    exact (if_neg hid).symm

/-- A save that changes neither the address nor the source does not show in the links. -/
theorem linksOf_update_self (hrow : s.wallets.get w.id = some row) (hsame : w.userId = row.userId)
    (hlink : w.link = row.link) : (s.saveWallet w).linksOf userId = s.linksOf userId := by
  rw [linksOf_update hrow hsame]
  refine (List.map_congr_left fun l hl => ?_).trans (List.map_id _)
  by_cases hid : l.id = w.id
  · obtain ⟨y, hy, rfl⟩ := List.mem_map.mp hl
    have hyrow : y = row := Db.Table.key_inj (mem_walletsOf.mp hy).1 (Db.Table.mem_of_get hrow)
      (hid.trans (Db.Table.get_key hrow).symm)
    rw [if_pos hid, hlink, hyrow]
    rfl
  · rw [if_neg hid]
    rfl

theorem linksOf_insert (hnew : s.wallets.get w.id = none) (huser : w.userId = userId) :
    (s.saveWallet w).linksOf userId = s.linksOf userId ++ [w.link] := by
  unfold Store.linksOf
  rw [walletsOf_insert hnew, if_pos huser, List.map_append]
  rfl

theorem linksOf_remove (s : Store) (w : UserWallet) (userId : JsStr) :
    (s.removeWallet w).linksOf userId = (s.linksOf userId).filter fun l => l.id ≠ w.id := by
  unfold Store.linksOf
  rw [walletsOf_remove, List.filter_map]
  rfl

/-- After a save of the user row, accepted or not, the links are what they were. -/
theorem linksOf_of_saveUser {writer : Writer} {loaded user : User} {o : Except Failure User}
    (h : (saveUser writer loaded user).Runs exec Succeeds s o t)
    (huser : (s.users.get userId).isSome) :
    t.linksOf userId = s.linksOf userId ∧ (t.users.get userId).isSome := by
  obtain ⟨-, ⟨-, -, rfl⟩ | ⟨-, -, rfl⟩⟩ := runs_saveUser h
  · exact ⟨rfl, Db.Table.isSome_get_save huser⟩
  · exact ⟨rfl, huser⟩

theorem runs_findByIdOrFail_of_isSome {α : Type} {f : User → M α} {o : Except Failure α}
    (huser : (s.users.get userId).isSome)
    (h : (findByIdOrFail userId >>= f).Runs exec Succeeds s o t) :
    ∃ u, s.users.get userId = some u ∧ u.id = userId ∧ (f u).Runs exec Succeeds s o t := by
  obtain ⟨u, hu⟩ := Option.isSome_iff_exists.mp huser
  obtain ⟨x, -, h⟩ := h
  simp only [exec, hu] at h
  exact ⟨u, hu, Db.Table.get_key hu, h⟩

theorem linksOf_linkWallet {u : User} {address : JsStr} {info : WalletMeta} {count : ℕ}
    {o : Except Failure User} (hid : u.id = userId) (huser : (s.users.get userId).isSome)
    (h : (linkWallet u address info count).Runs exec Succeeds s o t) :
    (∃ l : Link, l.address = address ∧ t.linksOf userId = s.linksOf userId ++ [l]) ∧
      (t.users.get userId).isSome := by
  obtain ⟨x, hx, h⟩ := h
  unfold Succeeds succeeded at hx
  simp only [exec] at h hx
  split at h
  · rename_i hconflict
    rw [hconflict] at hx
    cases hx
  · rename_i hconflict
    have hnew : s.wallets.get x.newId = none := by
      unfold Store.walletConflict at hconflict
      split_ifs at hconflict with hfree
      exact Option.not_isSome_iff_eq_none.mp hfree
    simp only [Prog.settle_ret, Prog.onOk, attempt, Prog.bind_eq_settle] at h
    by_cases hfirst : count = 0
    · rw [if_pos hfirst] at h
      obtain ⟨hlinks, hsome⟩ := linksOf_of_saveUser h huser
      rw [hlinks, linksOf_insert hnew hid]
      exact ⟨⟨_, rfl, rfl⟩, hsome⟩
    · rw [if_neg hfirst] at h
      obtain ⟨-, rfl⟩ := h
      rw [linksOf_insert hnew hid]
      exact ⟨⟨_, rfl, rfl⟩, huser⟩

/-- A wallet that is not linked yet. -/
theorem linksOf_addWalletAddress {address : JsStr} {info : Option WalletMeta}
    {o : Except Failure User} (huser : (s.users.get userId).isSome)
    (hnone : s.findWallet userId address = none)
    (h : (addWalletAddress userId address info).Runs exec Succeeds s o t) :
    (∃ l : Link, l.address = address ∧ t.linksOf userId = s.linksOf userId ++ [l]) ∧
      (t.users.get userId).isSome := by
  obtain ⟨u, -, hid, h⟩ := runs_findByIdOrFail_of_isSome huser h
  obtain ⟨x, -, h⟩ := h
  simp only [exec, hnone] at h
  obtain ⟨y, -, h⟩ := h
  exact linksOf_linkWallet hid huser h

theorem linksOf_promoteOldest {u : User} {o : Except Failure User}
    (huser : (s.users.get userId).isSome) (h : (promoteOldest u).Runs exec Succeeds s o t) :
    t.linksOf userId = s.linksOf userId ∧ (t.users.get userId).isSome := by
  obtain ⟨x, -, h⟩ := h
  simp only [exec] at h
  cases hnext : s.oldestWallet u.id with
  | none =>
    rw [hnext] at h
    exact linksOf_of_saveUser h huser
  | some next =>
    rw [hnext] at h
    obtain ⟨y, -, h⟩ := h
    have hmem : next ∈ s.wallets.rows := (mem_walletsOf.mp (mem_of_oldestWallet hnext)).1
    have hstored : s.wallets.get { next with isPrimary := true }.id = some next :=
      Db.Table.get_of_mem hmem
    have hsaved : (s.saveWallet { next with isPrimary := true }).linksOf userId = s.linksOf userId :=
      linksOf_update_self hstored rfl rfl
    obtain ⟨hlinks, hsome⟩ := linksOf_of_saveUser h huser
    exact ⟨hlinks.trans hsaved, hsome⟩

theorem linksOf_removeWallet {o : Except Failure User} (huser : (s.users.get userId).isSome)
    (hfound : s.findWallet userId w.walletAddress = some w)
    (h : (removeWallet userId w.walletAddress).Runs exec Succeeds s o t) :
    t.linksOf userId = (s.linksOf userId).filter (fun l => l.id ≠ w.id) ∧
      (t.users.get userId).isSome := by
  obtain ⟨u, -, hid, h⟩ := runs_findByIdOrFail_of_isSome huser h
  obtain ⟨x, -, h⟩ := h
  simp only [exec, hfound] at h
  obtain ⟨y, -, h⟩ := h
  simp only [exec] at h
  rw [← linksOf_remove]
  by_cases hprimary : w.isPrimary = true
  · rw [if_pos hprimary] at h
    exact linksOf_promoteOldest huser h
  · rw [if_neg hprimary] at h
    obtain ⟨-, rfl⟩ := h
    exact ⟨rfl, huser⟩

end Rows

theorem address_of_findWallet {s : Store} {userId address : JsStr} {w : UserWallet}
    (h : s.findWallet userId address = some w) : w.walletAddress = address := by
  unfold Store.findWallet at h
  have haddress := List.find?_some h
  rw [decide_eq_true_eq] at haddress
  exact haddress

/-- A linked row is found by its address. -/
theorem findWallet_of_link {s : Store} {userId : JsStr} {row : UserWallet}
    (haddresses : ((s.linksOf userId).map Link.address).Nodup) (hmem : row.link ∈ s.linksOf userId) :
    ∃ w, s.findWallet userId row.walletAddress = some w ∧ w.walletAddress = row.walletAddress ∧
      w.id = row.id := by
  obtain ⟨y, hy, hlink⟩ := List.mem_map.mp hmem
  have hfound : (s.findWallet userId row.walletAddress).isSome := by
    unfold Store.findWallet
    rw [List.find?_isSome]
    exact ⟨y, hy, decide_eq_true (congrArg Link.address hlink)⟩
  obtain ⟨w, hw⟩ := Option.isSome_iff_exists.mp hfound
  have hmemw : w.link ∈ s.linksOf userId := List.mem_map_of_mem (List.mem_of_find?_eq_some hw)
  have haddress := address_of_findWallet hw
  have hsame : w.link = row.link := List.inj_on_of_nodup_map haddresses hmemw hmem haddress
  exact ⟨w, hw, haddress, congrArg Link.id hsame⟩

section Loops
variable {s t : Store} {userId : JsStr}

theorem matchOf_link (existing : List UserWallet) (a : JsStr) :
    matchOf (existing.map UserWallet.link) a = (existingByAddress existing a).map UserWallet.link := by
  unfold matchOf existingByAddress
  rw [← List.map_reverse, List.find?_map]
  rfl

/-- The listed rows are the user's, beside some that were added since. -/
structure Lists (s : Store) (userId : JsStr) (existing : List UserWallet) (news : List Link) :
    Prop where
  user : (s.users.get userId).isSome
  own : ∀ r ∈ existing, r.userId = userId
  perm : (s.linksOf userId).Perm (existing.map UserWallet.link ++ news)

variable {existing : List UserWallet} {news : List Link}

theorem Lists.nodup (h : Lists s userId existing news) :
    ((existing.map UserWallet.link ++ news).map Link.id).Nodup :=
  ((h.perm.map Link.id).nodup_iff).mp (ids_linksOf s userId)

theorem Lists.stored (h : Lists s userId existing news) {r : UserWallet} (hr : r ∈ existing) :
    ∃ y, s.wallets.get r.id = some y ∧ y.userId = userId ∧ y.link = r.link := by
  have hmem : r.link ∈ s.linksOf userId := by
    rw [h.perm.mem_iff, List.mem_append]
    exact .inl (List.mem_map_of_mem hr)
  obtain ⟨y, hy, hlink⟩ := List.mem_map.mp hmem
  obtain ⟨hrow, huser⟩ := mem_walletsOf.mp hy
  have hid : y.id = r.id := congrArg Link.id hlink
  exact ⟨y, hid ▸ Db.Table.get_of_mem hrow, huser, hlink⟩

theorem link_patchMetadata (row : UserWallet) (link : ParsedWalletLink) :
    (row.patchMetadata link .privySync).link = row.link.mark [row.id] :=
  (if_pos (List.mem_singleton.mpr rfl)).symm

theorem mark_of_ne {l : Link} {id : JsStr} (h : l.id ≠ id) : l.mark [id] = l :=
  if_neg fun hmem => h (List.mem_singleton.mp hmem)

/-- A listed row is patched, in the table and in the list. -/
theorem Lists.patch (h : Lists s userId existing news) {row : UserWallet} (hrow : row ∈ existing)
    (link : ParsedWalletLink) :
    (existing.map fun r => if r.id = row.id then row.patchMetadata link .privySync else r).map
        UserWallet.link = (existing.map UserWallet.link).map (Link.mark [row.id]) ∧
      Lists (s.saveWallet (row.patchMetadata link .privySync)) userId
        (existing.map fun r => if r.id = row.id then row.patchMetadata link .privySync else r)
        news := by
  have hids : (existing.map UserWallet.link ++ news).map Link.id |>.Nodup := h.nodup
  rw [List.map_append, List.nodup_append, List.map_map] at hids
  obtain ⟨hexisting, -, hapart⟩ := hids
  have hpatched : (existing.map fun r => if r.id = row.id then row.patchMetadata link .privySync
      else r).map UserWallet.link = (existing.map UserWallet.link).map (Link.mark [row.id]) := by
    rw [List.map_map, List.map_map]
    apply List.map_congr_left
    intro r hr
    rw [Function.comp_apply, Function.comp_apply]
    by_cases hid : r.id = row.id
    · have hrrow : r = row := List.inj_on_of_nodup_map hexisting hr hrow hid
      rw [if_pos hid, hrrow, link_patchMetadata]
    · rw [if_neg hid, mark_of_ne hid]
  refine ⟨hpatched, h.user, ?_, ?_⟩
  · intro r hr
    obtain ⟨r', hr', rfl⟩ := List.mem_map.mp hr
    split_ifs
    · exact h.own row hrow
    · exact h.own r' hr'
  · obtain ⟨y, hy, huser, hlink⟩ := h.stored hrow
    have hsame : (row.patchMetadata link .privySync).userId = y.userId :=
      (h.own row hrow).trans huser.symm
    have hlinks : (s.saveWallet (row.patchMetadata link .privySync)).linksOf userId =
        (s.linksOf userId).map fun l =>
          if l.id = row.id then (row.patchMetadata link .privySync).link else l :=
      linksOf_update hy hsame
    rw [hlinks, hpatched]
    refine (h.perm.map _).trans (.of_eq ?_)
    rw [List.map_append]
    have hfirst : ∀ l ∈ existing.map UserWallet.link,
        (if l.id = row.id then (row.patchMetadata link .privySync).link else l) =
          l.mark [row.id] := by
      intro l hl
      obtain ⟨r, hr, rfl⟩ := List.mem_map.mp hl
      by_cases hid : r.id = row.id
      · have hrrow : r = row := List.inj_on_of_nodup_map hexisting hr hrow hid
        rw [hrrow, ← link_patchMetadata row link]
        exact if_pos rfl
      · rw [mark_of_ne hid]
        exact if_neg hid
    have hsecond : ∀ l ∈ news,
        (if l.id = row.id then (row.patchMetadata link .privySync).link else l) = l := by
      intro l hl
      apply if_neg
      intro hid
      exact hapart row.id (List.mem_map.mpr ⟨row, hrow, rfl⟩) l.id (List.mem_map_of_mem hl) hid.symm
    have hnews : (news.map fun l =>
        if l.id = row.id then (row.patchMetadata link .privySync).link else l) = news :=
      (List.map_congr_left hsecond).trans (List.map_id _)
    rw [← List.map_congr_left hfirst]
    exact congrArg _ hnews

/-- The rows after the first loop. -/
theorem runs_addDesired {links : List ParsedWalletLink} {o : Except Failure (List UserWallet)}
    (hlists : Lists s userId existing news) (hnodup : (links.map ParsedWalletLink.address).Nodup)
    (hfresh : ∀ n ∈ news, n.address ∉ links.map ParsedWalletLink.address)
    (h : (addDesired userId links existing).Runs exec Succeeds s o t) :
    ∃ existing' news', o = .ok existing' ∧ Lists t userId existing' (news ++ news') ∧
      news'.map Link.address =
        added (existing.map UserWallet.link) (links.map ParsedWalletLink.address) ∧
      existing'.map UserWallet.link = (existing.map UserWallet.link).map
        (Link.mark (matched (existing.map UserWallet.link) (links.map ParsedWalletLink.address))) := by
  induction links generalizing s existing news with
  | nil =>
    obtain ⟨rfl, rfl⟩ := h
    refine ⟨existing, [], rfl, ?_, rfl, ?_⟩
    · rw [List.append_nil]
      exact hlists
    · have hmark : ∀ l ∈ existing.map UserWallet.link,
          l.mark (matched (existing.map UserWallet.link) []) = l := fun l _ => rfl
      exact ((List.map_congr_left hmark).trans (List.map_id _)).symm
  | cons link links ih =>
    rw [List.map_cons, List.nodup_cons] at hnodup
    unfold addDesired at h
    have hmatch := matchOf_link existing link.address
    rw [List.map_cons]
    cases hfound : existingByAddress existing link.address with
    | some row =>
      rw [hfound] at h hmatch
      obtain ⟨x, -, h⟩ := h
      have hrow : row ∈ existing := List.mem_reverse.mp (List.mem_of_find?_eq_some hfound)
      obtain ⟨hmarked, hpatched⟩ := hlists.patch hrow link
      obtain ⟨existing', news', ho, hend, hnews, hexisting⟩ := ih hpatched hnodup.2
        (fun n hn hmem => hfresh n hn (List.mem_cons_of_mem _ hmem)) h
      rw [hmarked, added_map (mark_address _)] at hnews
      rw [hmarked, matched_map (mark_id _) (mark_address _), List.map_map] at hexisting
      refine ⟨existing', news', ho, hend, ?_, ?_⟩
      · rw [hnews, added, added, List.filter_cons_of_neg]
        rw [hmatch]
        exact Bool.false_ne_true
      · have hcons : matched (existing.map UserWallet.link)
            (link.address :: links.map ParsedWalletLink.address) =
              [row.id] ++ matched (existing.map UserWallet.link)
                (links.map ParsedWalletLink.address) := by
          unfold matched
          rw [List.filterMap_cons, hmatch]
          rfl
        rw [hexisting, hcons]
        apply List.map_congr_left
        intro l _
        exact mark_mark _ _ l
    | none =>
      rw [hfound] at h hmatch
      obtain ⟨r, u, hswallow, h⟩ := Prog.runs_settle.mp h
      obtain ⟨o', v, hadd, hdone, hv⟩ := Prog.runs_settle.mp hswallow
      subst hv
      have hnone : s.findWallet userId link.address = none := by
        unfold Store.findWallet
        rw [List.find?_eq_none]
        intro w hw hsame
        rw [decide_eq_true_eq] at hsame
        have hmem : w.link ∈ s.linksOf userId := List.mem_map_of_mem hw
        rcases List.mem_append.mp (hlists.perm.mem_iff.mp hmem) with hold | hnew
        · exact matchOf_eq_none.mp hmatch _ hold (congrArg lower hsame)
        · refine hfresh _ hnew (List.mem_map.mpr ⟨link, List.mem_cons_self, hsame.symm⟩)
      subst hdone
      obtain ⟨⟨l, haddress, hlinks⟩, huser⟩ := linksOf_addWalletAddress hlists.user hnone hadd
      have hadded : Lists v userId existing (news ++ [l]) := by
        refine ⟨huser, hlists.own, ?_⟩
        rw [hlinks, ← List.append_assoc]
        exact hlists.perm.append_right [l]
      have hfresh' : ∀ n ∈ news ++ [l], n.address ∉ links.map ParsedWalletLink.address := by
        intro n hn hmem
        rcases List.mem_append.mp hn with hold | hnew
        · exact hfresh n hold (List.mem_cons_of_mem _ hmem)
        · rw [List.mem_singleton.mp hnew, haddress] at hmem
          exact hnodup.1 hmem
      obtain ⟨existing', news', ho, hend, hnews, hexisting⟩ := ih hadded hnodup.2 hfresh' h
      refine ⟨existing', l :: news', ho, ?_, ?_, ?_⟩
      · rw [List.append_assoc] at hend
        exact hend
      · rw [List.map_cons, hnews, haddress, added, added, List.filter_cons_of_pos]
        rw [hmatch]
        rfl
      · rw [hexisting]
        unfold matched
        rw [List.filterMap_cons, hmatch]
        rfl

/-- The second loop leaves the rows that it keeps. -/
theorem runs_dropUndesired {desired : List JsStr} {o : Except Failure Unit}
    (hlists : Lists s userId existing news)
    (haddresses : ((s.linksOf userId).map Link.address).Nodup)
    (h : (eachDo (dropUndesired userId desired) existing).Runs exec Succeeds s o t) :
    (t.linksOf userId).Perm ((existing.map UserWallet.link).filter (kept desired) ++ news) ∧
      (t.users.get userId).isSome := by
  induction existing generalizing s news with
  | nil =>
    obtain ⟨-, rfl⟩ := h
    exact ⟨hlists.perm, hlists.user⟩
  | cons row rows ih =>
    have hids := hlists.nodup
    rw [List.map_cons, List.cons_append, List.map_cons, List.nodup_cons] at hids
    by_cases hkept : kept desired row.link = true
    · have hdrop : dropUndesired userId desired row = pure () := by
        unfold dropUndesired
        unfold kept at hkept
        rw [Bool.or_eq_true, decide_eq_true_eq, decide_eq_true_eq] at hkept
        by_cases hin : row.walletAddress ∈ desired
        · rw [if_pos hin]
        · have hsource : row.source ≠ .privySync := hkept.resolve_left hin
          rw [if_neg hin, if_pos hsource]
      have hnext : Lists s userId rows (row.link :: news) := by
        refine ⟨hlists.user, fun r hr => hlists.own r (List.mem_cons_of_mem _ hr), ?_⟩
        exact hlists.perm.trans (List.perm_middle.symm)
      rw [eachDo, hdrop] at h
      obtain ⟨hperm, huser⟩ := ih hnext haddresses h
      rw [List.map_cons, List.filter_cons_of_pos hkept]
      exact ⟨hperm.trans List.perm_middle, huser⟩
    · have hdrop : dropUndesired userId desired row =
          (removeWallet userId row.walletAddress).swallow := by
        unfold dropUndesired
        unfold kept at hkept
        rw [Bool.or_eq_true, decide_eq_true_eq, decide_eq_true_eq, not_or, not_not] at hkept
        have hout : row.walletAddress ∉ desired := hkept.1
        have hprivy : ¬ row.source ≠ .privySync := not_not.mpr hkept.2
        rw [if_neg hout, if_neg hprivy]
      rw [eachDo, hdrop] at h
      obtain ⟨r, u, hswallow, h⟩ := Prog.runs_settle.mp h
      obtain ⟨o', v, hremove, hdone, hv⟩ := Prog.runs_settle.mp hswallow
      subst hdone hv
      have hmem : row.link ∈ s.linksOf userId := by
        rw [hlists.perm.mem_iff]
        exact List.mem_cons_self
      obtain ⟨w, hw, hwaddress, hid⟩ := findWallet_of_link haddresses hmem
      rw [← hwaddress] at hw hremove
      obtain ⟨hlinks, huser⟩ := linksOf_removeWallet hlists.user hw hremove
      have hperm : (v.linksOf userId).Perm (rows.map UserWallet.link ++ news) := by
        rw [hlinks]
        refine (hlists.perm.filter _).trans (.of_eq ?_)
        rw [List.map_cons, List.cons_append, List.filter_cons_of_neg (by simp [hid, UserWallet.link]),
          List.filter_eq_self]
        intro l hl
        refine decide_eq_true fun hlid => hids.1 ?_
        exact List.mem_map.mpr ⟨l, hl, hlid.trans hid⟩
      have haddresses' : ((v.linksOf userId).map Link.address).Nodup := by
        rw [hlinks]
        exact haddresses.sublist (List.filter_sublist.map _)
      have hnext : Lists v userId rows news :=
        ⟨huser, fun r hr => hlists.own r (List.mem_cons_of_mem _ hr), hperm⟩
      rw [List.map_cons, List.filter_cons_of_neg hkept]
      exact ih hnext haddresses' h

end Loops

section Profile
variable {getAddress : JsStr → Option JsStr}

def validAddresses (getAddress : JsStr → Option JsStr) (wallets : List ParsedWalletLink) :
    List JsStr := wallets.filterMap fun l => getAddress l.address

/-- The checksummed form of an address does not depend on the letter case it is given in. -/
def ChecksumOf (getAddress : JsStr → Option JsStr) : Prop :=
  ∀ a b r q, getAddress a = some r → getAddress b = some q → lower r = lower q → r = q

theorem addresses_setLink (links : List ParsedWalletLink) (link : ParsedWalletLink) :
    (setLink links link).map ParsedWalletLink.address =
      if link.address ∈ links.map ParsedWalletLink.address then
        links.map ParsedWalletLink.address
      else links.map ParsedWalletLink.address ++ [link.address] := by
  unfold setLink
  by_cases hany : (links.any fun l => l.address = link.address) = true
  · have hmem : link.address ∈ links.map ParsedWalletLink.address := by
      obtain ⟨l, hl, hsame⟩ := List.any_eq_true.mp hany
      exact List.mem_map.mpr ⟨l, hl, of_decide_eq_true hsame⟩
    rw [if_pos hany, if_pos hmem, List.map_map]
    apply List.map_congr_left
    intro l _
    rw [Function.comp_apply]
    by_cases hsame : l.address = link.address
    · rw [if_pos hsame, hsame]
    · rw [if_neg hsame]
  · have hmem : link.address ∉ links.map ParsedWalletLink.address := by
      intro hmem
      obtain ⟨l, hl, hsame⟩ := List.mem_map.mp hmem
      exact hany (List.any_eq_true.mpr ⟨l, hl, decide_eq_true hsame⟩)
    rw [if_neg hany, if_neg hmem, List.map_append]
    rfl

theorem addresses_foldl_setLink (getAddress : JsStr → Option JsStr) (wallets : List ParsedWalletLink)
    (links : List ParsedWalletLink) (hnodup : (links.map ParsedWalletLink.address).Nodup) :
    let after := wallets.foldl (fun desired raw =>
      match getAddress raw.address with
      | some address => setLink desired { raw with address }
      | none => desired) links
    (after.map ParsedWalletLink.address).Nodup ∧
      ∀ a, a ∈ after.map ParsedWalletLink.address ↔
        a ∈ links.map ParsedWalletLink.address ∨ a ∈ validAddresses getAddress wallets := by
  induction wallets generalizing links with
  | nil => exact ⟨hnodup, fun a => (or_iff_left List.not_mem_nil).symm⟩
  | cons raw wallets ih =>
    unfold validAddresses
    rw [List.foldl_cons, List.filterMap_cons]
    cases hvalid : getAddress raw.address with
    | none => exact ih links hnodup
    | some address =>
      have hset := addresses_setLink links { raw with address := address }
      have hnext : ((setLink links { raw with address := address }).map
          ParsedWalletLink.address).Nodup := by
        rw [hset]
        split_ifs with hmem
        · exact hnodup
        · have hconcat := hnodup.concat hmem
          rw [List.concat_eq_append] at hconcat
          exact hconcat
      obtain ⟨hafter, hmem⟩ := ih (setLink links { raw with address := address }) hnext
      refine ⟨hafter, fun a => (hmem a).trans ?_⟩
      rw [hset, List.mem_cons]
      change _ ↔ _ ∨ a = address ∨ a ∈ validAddresses getAddress wallets
      by_cases hin : address ∈ links.map ParsedWalletLink.address
      · rw [if_pos hin]
        constructor
        · rintro (hold | hlater)
          · exact .inl hold
          · exact .inr (.inr hlater)
        · rintro (hold | rfl | hlater)
          · exact .inl hold
          · exact .inl hin
          · exact .inr hlater
      · rw [if_neg hin, List.mem_append, List.mem_singleton, or_assoc]

/-- The addresses that are wanted: each valid one of the profile once. -/
theorem desiredWallets_spec (getAddress : JsStr → Option JsStr) (wallets : List ParsedWalletLink) :
    ((desiredWallets getAddress wallets).map ParsedWalletLink.address).Nodup ∧
      ∀ a, a ∈ (desiredWallets getAddress wallets).map ParsedWalletLink.address ↔
        a ∈ validAddresses getAddress wallets := by
  obtain ⟨hnodup, hmem⟩ := addresses_foldl_setLink getAddress wallets []
    List.nodup_nil
  exact ⟨hnodup, fun a => (hmem a).trans (or_iff_right List.not_mem_nil)⟩

theorem oneSpelling_validAddresses (hget : ChecksumOf getAddress) (wallets : List ParsedWalletLink) :
    OneSpelling (validAddresses getAddress wallets) := by
  intro a ha b hb hkey
  obtain ⟨l, -, hl⟩ := List.mem_filterMap.mp ha
  obtain ⟨m, -, hm⟩ := List.mem_filterMap.mp hb
  exact hget _ _ _ _ hl hm hkey

variable {listed links : List Link} {desired desired' : List JsStr}

theorem mirrored_congr (hsame : ∀ a, a ∈ desired ↔ a ∈ desired') :
    Mirrored listed desired links ↔ Mirrored listed desired' links := by
  have hwanted : ∀ k, (∃ a ∈ desired, lower a = k) ↔ ∃ a ∈ desired', lower a = k := by
    intro k
    apply exists_congr
    intro a
    rw [hsame]
  constructor
  · intro h
    exact ⟨h.nodup, fun k => (h.mem k).trans (or_congr_left (hwanted k))⟩
  · intro h
    exact ⟨h.nodup, fun k => (h.mem k).trans (or_congr_left (hwanted k).symm)⟩

theorem SpellingsAgree.congr (hsame : ∀ a, a ∈ desired ↔ a ∈ desired')
    (h : SpellingsAgree listed desired) : SpellingsAgree listed desired' := by
  constructor
  · intro a ha
    exact h.checksummed a ((hsame a).mpr ha)
  · intro l hl m hm hlsource hmsource hkeys hout
    exact h.apart l hl m hm hlsource hmsource hkeys fun a ha => hout a ((hsame a).mp ha)

end Profile

def Store.listedLinks (s : Store) (userId : JsStr) : List Link :=
  (s.listWallets userId).map UserWallet.link

theorem perm_listedLinks (s : Store) (userId : JsStr) :
    (s.listedLinks userId).Perm (s.linksOf userId) :=
  (List.perm_insertionSort _ _).map _

section Run
variable {getAddress : JsStr → Option JsStr} {s t : Store} {userId : JsStr}
  {wallets : List ParsedWalletLink} {o : Except Failure Unit}

/-- The tables after a sync whose database calls succeed. -/
theorem runs_syncPrivyWallets (huser : (s.users.get userId).isSome)
    (haddresses : ((s.linksOf userId).map Link.address).Nodup)
    (h : (syncPrivyWallets getAddress userId wallets).Runs exec Succeeds s o t) :
    SyncOf (s.listedLinks userId)
        ((desiredWallets getAddress wallets).map ParsedWalletLink.address) (t.linksOf userId) ∧
      (t.users.get userId).isSome := by
  obtain ⟨hnodup, -⟩ := desiredWallets_spec getAddress wallets
  obtain ⟨x, -, h⟩ := Prog.runs_call_bind.mp h
  simp only [exec] at h
  have hlists : Lists s userId (s.listWallets userId) [] := by
    refine ⟨huser, fun r hr => ?_, ?_⟩
    · have hmem := (List.perm_insertionSort _ _).mem_iff.mp hr
      exact (mem_walletsOf.mp hmem).2
    · rw [List.append_nil]
      exact (perm_listedLinks s userId).symm
  have haddresses' : ((s.listedLinks userId).map Link.address).Nodup :=
    (((perm_listedLinks s userId).map Link.address).nodup_iff).mpr haddresses
  rcases Prog.runs_bind.mp h with ⟨existing, u, hadd, h⟩ | ⟨e, he, -⟩
  · obtain ⟨existing', news, ho, hend, hnews, hexisting⟩ :=
      runs_addDesired hlists hnodup (fun n hn => (List.not_mem_nil hn).elim) hadd
    obtain rfl := Except.ok.inj ho
    rw [List.nil_append] at hend
    have hmid : ((u.linksOf userId).map Link.address).Nodup := by
      rw [(hend.perm.map Link.address).nodup_iff, List.map_append, hexisting, addresses_map_mark, hnews]
      exact nodup_append_added (List.Sublist.refl _) haddresses' hnodup
    obtain ⟨hperm, hsome⟩ := runs_dropUndesired hend hmid h
    rw [hexisting] at hperm
    exact ⟨⟨news, hnews, hperm⟩, hsome⟩
  · obtain ⟨existing', news, ho, -⟩ :=
      runs_addDesired hlists hnodup (fun n hn => (List.not_mem_nil hn).elim) he
    cases ho

end Run

/-- A sync leaves the wallets of the profile and those that another source has linked, each once, and
a second one changes nothing, exactly when the spellings agree. -/
theorem sync_mirrors {getAddress : JsStr → Option JsStr} (hget : ChecksumOf getAddress)
    {s t u : Store} {userId : JsStr} {wallets : List ParsedWalletLink} {o o' : Except Failure Unit}
    (huser : (s.users.get userId).isSome)
    (hunique : ((s.linksOf userId).map Link.address).Nodup)
    (hfirst : (syncPrivyWallets getAddress userId wallets).Runs exec Succeeds s o t)
    (hsecond : (syncPrivyWallets getAddress userId wallets).Runs exec Succeeds t o' u) :
    (Mirrored (s.linksOf userId) (validAddresses getAddress wallets) (t.linksOf userId) ∧
        ∀ k, k ∈ (u.linksOf userId).map Link.key ↔ k ∈ (t.linksOf userId).map Link.key) ↔
      SpellingsAgree (s.listedLinks userId) (validAddresses getAddress wallets) := by
  obtain ⟨hnodup, hmem⟩ := desiredWallets_spec getAddress wallets
  have hone : OneSpelling ((desiredWallets getAddress wallets).map ParsedWalletLink.address) := by
    intro a ha b hb
    exact oneSpelling_validAddresses hget wallets a ((hmem a).mp ha) b ((hmem b).mp hb)
  have hlisted := perm_listedLinks s userId
  have hids : ((s.listedLinks userId).map Link.id).Nodup :=
    ((hlisted.map Link.id).nodup_iff).mpr (ids_linksOf s userId)
  have haddresses : ((s.listedLinks userId).map Link.address).Nodup :=
    ((hlisted.map Link.address).nodup_iff).mpr hunique
  obtain ⟨hsync, huser'⟩ := runs_syncPrivyWallets huser hunique hfirst
  have hunique' := nodup_addresses_of_syncOf haddresses hnodup hsync
  obtain ⟨hsync', -⟩ := runs_syncPrivyWallets huser' hunique' hsecond
  have hids' : ((t.listedLinks userId).map Link.id).Nodup :=
    (((perm_listedLinks t userId).map Link.id).nodup_iff).mpr (ids_linksOf t userId)
  have hiff := spellingsAgree_iff hids haddresses hnodup hone hsync hids' (perm_listedLinks t userId)
    hsync'
  have hlist : Mirrored (s.linksOf userId) (validAddresses getAddress wallets) (t.linksOf userId) ↔
      Mirrored (s.listedLinks userId)
        ((desiredWallets getAddress wallets).map ParsedWalletLink.address) (t.linksOf userId) := by
    rw [mirrored_congr hmem]
    exact mirrored_of_perm hlisted.symm
  rw [hlist, hiff]
  constructor
  · intro hagree
    exact hagree.congr hmem
  · intro hagree
    exact hagree.congr fun a => (hmem a).symm

theorem checksumOf_digitsAddress : ChecksumOf digitsAddress := by
  have hself : ∀ a r, digitsAddress a = some r → lower r = r := by
    intro a r h
    unfold digitsAddress at h
    split_ifs at h with haddress
    obtain rfl := Option.some.inj h
    exact lower_of_isAddress haddress
  intro a b r q ha hb hkey
  rw [hself a r ha, hself b q hb] at hkey
  exact hkey

def aliceWallets : List ParsedWalletLink := [privyWallet walletA, privyWallet walletB]

theorem spellingsAgree_alice : SpellingsAgree (aliceStore.listedLinks (js "u1"))
    (validAddresses digitsAddress aliceWallets) := by
  constructor
  · decide +kernel
  · decide +kernel

/-- A profile with the wallet that is linked already and a new one. -/
theorem sync_mirrors_alice : ∃ t,
    (syncPrivyWallets digitsAddress (js "u1") aliceWallets).Runs exec Succeeds aliceStore (.ok ()) t ∧
      Mirrored (aliceStore.linksOf (js "u1")) (validAddresses digitsAddress aliceWallets)
        (t.linksOf (js "u1")) := by
  have hplay : (((syncPrivyWallets digitsAddress (js "u1") aliceWallets).tryPlay exec Succeeds
      ⟨5, js "w2"⟩ aliceStore).bind fun r =>
        ((syncPrivyWallets digitsAddress (js "u1") aliceWallets).tryPlay exec Succeeds
          ⟨6, js "w3"⟩ r.2).map fun q => (r.1, q.1)) = some (.ok (), .ok ()) := by
    decide +kernel
  obtain ⟨⟨o, t⟩, hr, hrest⟩ := Option.bind_eq_some_iff.mp hplay
  obtain ⟨⟨o', u⟩, hq, heq⟩ := Option.map_eq_some_iff.mp hrest
  obtain ⟨rfl, rfl⟩ := Prod.mk.inj heq
  have hfirst := Prog.runs_of_tryPlay hr
  have hsecond := Prog.runs_of_tryPlay hq
  have hmirrors := sync_mirrors checksumOf_digitsAddress (by decide +kernel) (by decide +kernel) hfirst
    hsecond
  exact ⟨t, hfirst, (hmirrors.mpr spellingsAgree_alice).1⟩

def mixedAddress : JsStr := js "0x5aAeb6053F3E94C9b9A09f33669435E7Ef1BeAed"

/-- `getAddress` on the two spellings of that address. -/
def mixedChecksum (address : JsStr) : Option JsStr :=
  if address = mixedAddress ∨ address = lower mixedAddress then some mixedAddress
  else digitsAddress address

def lowerCaseStore : Store :=
  { aliceStore with
    wallets := ⟨[{ aliceWallet with walletAddress := lower mixedAddress, source := .admin }],
      by decide⟩ }

/-- The sync takes the row for the profile's wallet, patches it, and unlinks it. -/
theorem sync_unlinks_wallet : validAddresses mixedChecksum [privyWallet mixedAddress] =
      [mixedAddress] ∧
    ∃ t, (syncPrivyWallets mixedChecksum (js "u1") [privyWallet mixedAddress]).Runs exec Succeeds
        lowerCaseStore (.ok ()) t ∧
      t.linksOf (js "u1") = [] ∧
      ¬ Mirrored (lowerCaseStore.linksOf (js "u1")) [mixedAddress] (t.linksOf (js "u1")) := by
  have hplay : ((syncPrivyWallets mixedChecksum (js "u1") [privyWallet mixedAddress]).tryPlay exec
      Succeeds ⟨5, []⟩ lowerCaseStore).map (fun r => (r.1, r.2.linksOf (js "u1"))) =
        some (.ok (), []) := by
    decide +kernel
  obtain ⟨⟨o, t⟩, hr, heq⟩ := Option.map_eq_some_iff.mp hplay
  obtain ⟨rfl, hnone⟩ := Prod.mk.inj heq
  refine ⟨by decide +kernel, t, Prog.runs_of_tryPlay hr, hnone, fun hmirror => ?_⟩
  have hlinked := (hmirror.mem (lower mixedAddress)).mpr (.inl ⟨mixedAddress, List.mem_cons_self, rfl⟩)
  have hno : t.linksOf (js "u1") = [] := hnone
  rw [hno] at hlinked
  cases hlinked

end Users
