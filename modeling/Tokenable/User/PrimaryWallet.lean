import Tokenable.User.Commands

/-!
# The primary wallet, stored twice

`Sound` says that `users.wallet_address` is the address of the one primary row of `user_wallets`, and
null for a user without rows. Linking and unlinking keep it, one call after the other. The session
sync of a returning user does so unless its last save, of the row it loaded before the wallets were
synced, hits a row whose wallet address has changed: `sound_saveUser_iff`.
-/

namespace Users
open Js Platform Async

/-- Two versions of a wallet row that link the same wallet in the same rank. -/
structure SameLink (a b : UserWallet) : Prop where
  userId : b.userId = a.userId
  walletAddress : b.walletAddress = a.walletAddress
  isPrimary : b.isPrimary = a.isPrimary

theorem SameLink.refl (a : UserWallet) : SameLink a a := ⟨rfl, rfl, rfl⟩

theorem SameLink.trans (a b c : UserWallet) (hab : SameLink a b) (hbc : SameLink b c) :
    SameLink a c :=
  ⟨hbc.userId.trans hab.userId, hbc.walletAddress.trans hab.walletAddress,
    hbc.isPrimary.trans hab.isPrimary⟩

structure Clash (s : Store) (x u : User) : Prop where
  of_columns : (u.googleId.isSome ∧ x.googleId = u.googleId) ∨
    (u.privyId.isSome ∧ x.privyId = u.privyId) ∨ (s.emailUnique ∧ x.email = u.email)

def primaryAddresses (ws : List UserWallet) : List (Option JsStr) :=
  (ws.filter UserWallet.isPrimary).map fun w => some w.walletAddress

/-- One primary row, whose address the user has; no address when there are no rows. -/
def PrimaryOf (ws : List UserWallet) (address : Option JsStr) : Prop :=
  if ws = [] then address = none else primaryAddresses ws = [address]

instance (ws : List UserWallet) (address : Option JsStr) : Decidable (PrimaryOf ws address) :=
  inferInstanceAs (Decidable (if ws = [] then address = none else primaryAddresses ws = [address]))

def PrimaryWallets (s : Store) : Prop :=
  ∀ u ∈ s.users.rows, PrimaryOf (s.walletsOf u.id) u.walletAddress

instance (s : Store) : Decidable (PrimaryWallets s) := by unfold PrimaryWallets; infer_instance

/-- The constraints of the schema: a wallet belongs to a user, and no two users clash. -/
structure Constraints (s : Store) : Prop where
  foreignKey : ∀ w ∈ s.wallets.rows, (s.users.get w.userId).isSome
  unique : ∀ u ∈ s.users.rows, s.userConflict u = none

structure Sound (s : Store) : Prop where
  constraints : Constraints s
  primary : PrimaryWallets s

theorem userConflict_eq_none {s : Store} {u : User} :
    s.userConflict u = none ↔ ∀ x ∈ s.users.rows, x.id ≠ u.id → ¬ Clash s x u := by
  have hclash : ∀ x, Clash s x u ↔ (u.googleId.isSome ∧ x.googleId = u.googleId) ∨
      (u.privyId.isSome ∧ x.privyId = u.privyId) ∨ (s.emailUnique ∧ x.email = u.email) :=
    fun x => ⟨Clash.of_columns, Clash.mk⟩
  simp only [hclash, Store.userConflict]
  split_ifs with hgoogle hprivy hemail
  · simp only [Bool.and_eq_true, List.any_eq_true, decide_eq_true_eq] at hgoogle
    obtain ⟨hsome, x, hx, hne, heq⟩ := hgoogle
    simp only [false_iff, not_forall]
    exact ⟨x, hx, hne, fun hno => hno (.inl ⟨hsome, heq⟩)⟩
  · simp only [Bool.and_eq_true, List.any_eq_true, decide_eq_true_eq] at hprivy
    obtain ⟨hsome, x, hx, hne, heq⟩ := hprivy
    simp only [false_iff, not_forall]
    exact ⟨x, hx, hne, fun hno => hno (.inr (.inl ⟨hsome, heq⟩))⟩
  · simp only [Bool.and_eq_true, List.any_eq_true, decide_eq_true_eq] at hemail
    obtain ⟨hon, x, hx, hne, heq⟩ := hemail
    simp only [false_iff, not_forall]
    exact ⟨x, hx, hne, fun hno => hno (.inr (.inr ⟨hon, heq⟩))⟩
  · simp only [Bool.and_eq_true, List.any_eq_true, decide_eq_true_eq, not_and, not_exists]
      at hgoogle hprivy hemail
    simp only [true_iff]
    rintro x hx hne (⟨hsome, heq⟩ | ⟨hsome, heq⟩ | ⟨hon, heq⟩)
    · exact hgoogle hsome x hx hne heq
    · exact hprivy hsome x hx hne heq
    · exact hemail hon x hx hne heq

theorem Clash.symm {s : Store} {x u : User} (h : Clash s x u) : Clash s u x := by
  obtain ⟨hsome, heq⟩ | ⟨hsome, heq⟩ | ⟨hon, heq⟩ := h.of_columns
  · exact ⟨.inl ⟨heq ▸ hsome, heq.symm⟩⟩
  · exact ⟨.inr (.inl ⟨heq ▸ hsome, heq.symm⟩)⟩
  · exact ⟨.inr (.inr ⟨hon, heq.symm⟩)⟩

section Saves
variable {s : Store} {u x : User}

@[simp] theorem walletsOf_saveUser (s : Store) (u : User) (userId : JsStr) :
    (s.saveUser u).walletsOf userId = s.walletsOf userId := rfl

/-- A user row that the indexes accept can be saved. -/
theorem constraints_saveUser (hs : Constraints s) (hu : s.userConflict u = none) :
    Constraints (s.saveUser u) := by
  constructor
  · intro w hw
    exact Db.Table.isSome_get_save (hs.foreignKey w hw)
  · intro v hv
    have hno := userConflict_eq_none.mp hu
    refine userConflict_eq_none.mpr fun y hy hne hclash => ?_
    have hclash' : Clash s y v := ⟨hclash.of_columns⟩
    rcases Db.Table.mem_save.mp hv with hvu | ⟨hvs, hvu⟩
    · rcases Db.Table.mem_save.mp hy with hyu | ⟨hys, -⟩
      · exact hne (by rw [hyu, hvu])
      · exact hno y hys (hvu ▸ hne) (hvu ▸ hclash')
    · rcases Db.Table.mem_save.mp hy with hyu | ⟨hys, -⟩
      · exact hno v hvs hvu (hyu ▸ hclash').symm
      · exact userConflict_eq_none.mp (hs.unique v hvs) y hys hne hclash'

/-- A row that clashes with nothing still does not when its other columns change. -/
theorem userConflict_of_columns (hs : Constraints s) (hx : s.users.get u.id = some x)
    (hgoogle : u.googleId = x.googleId) (hprivy : u.privyId = x.privyId)
    (hemail : u.email = x.email) : s.userConflict u = none := by
  have hid : x.id = u.id := Db.Table.get_key hx
  refine userConflict_eq_none.mpr fun y hy hne hclash => ?_
  have hno := userConflict_eq_none.mp (hs.unique x (Db.Table.mem_of_get hx)) y hy (hid ▸ hne)
  refine hno ⟨?_⟩
  rw [← hgoogle, ← hprivy, ← hemail]
  exact hclash.of_columns

/-- Saving a row keeps the invariant exactly when it leaves the wallet address as it is stored. -/
theorem sound_saveUser_iff (hs : Sound s) (hu : s.userConflict u = none)
    (hx : s.users.get u.id = some x) :
    Sound (s.saveUser u) ↔ u.walletAddress = x.walletAddress := by
  have hid : x.id = u.id := Db.Table.get_key hx
  have hold : PrimaryOf (s.walletsOf u.id) x.walletAddress := by
    rw [← hid]
    exact hs.primary x (Db.Table.mem_of_get hx)
  constructor
  · intro h
    have hnew : PrimaryOf (s.walletsOf u.id) u.walletAddress :=
      h.primary u (Db.Table.mem_save.mpr (.inl rfl))
    by_cases hnil : s.walletsOf u.id = []
    · rw [PrimaryOf, if_pos hnil] at hold hnew
      rw [hold, hnew]
    · rw [PrimaryOf, if_neg hnil] at hold hnew
      rw [hold] at hnew
      exact (List.singleton_injective hnew).symm
  · intro h
    refine ⟨constraints_saveUser hs.constraints hu, fun v hv => ?_⟩
    rcases Db.Table.mem_save.mp hv with rfl | ⟨hv, -⟩
    · rw [walletsOf_saveUser, h]
      exact hold
    · exact hs.primary v hv

end Saves

/-- What the tables must say after a call that changed the wallets of one user. -/
theorem sound_of_wallets {s t : Store} {u : User} (hs : Sound s) (ht : Constraints t)
    (husers : t.users = s.users.save u)
    (hothers : ∀ v, v ≠ u.id → t.walletsOf v = s.walletsOf v)
    (hown : PrimaryOf (t.walletsOf u.id) u.walletAddress) : Sound t := by
  refine ⟨ht, fun v hv => ?_⟩
  rw [husers] at hv
  rcases Db.Table.mem_save.mp hv with rfl | ⟨hv, hne⟩
  · exact hown
  · rw [hothers v.id hne]
    exact hs.primary v hv

section Wallets
variable {s : Store} {w row : UserWallet} {userId address : JsStr}

theorem mem_walletsOf : w ∈ s.walletsOf userId ↔ w ∈ s.wallets.rows ∧ w.userId = userId := by
  rw [Store.walletsOf, Db.Table.mem_find, decide_eq_true_eq]

theorem walletsOf_insert (hnew : s.wallets.get w.id = none) (userId : JsStr) :
    (s.saveWallet w).walletsOf userId =
      s.walletsOf userId ++ if w.userId = userId then [w] else [] := by
  rw [Store.walletsOf, Store.saveWallet, Db.Table.find_save_of_get_eq_none hnew]
  simp [Store.walletsOf]

theorem walletsOf_update (hrow : s.wallets.get w.id = some row) (hsame : w.userId = row.userId)
    (userId : JsStr) : (s.saveWallet w).walletsOf userId =
      (s.walletsOf userId).map fun y => if y.id = w.id then w else y := by
  rw [Store.walletsOf, Store.saveWallet, Db.Table.find_save_of_get_eq_some hrow]
  · rfl
  · rw [hsame]

theorem walletsOf_remove (s : Store) (w : UserWallet) (userId : JsStr) :
    (s.removeWallet w).walletsOf userId = (s.walletsOf userId).filter fun y => y.id ≠ w.id :=
  Db.Table.find_remove _ _ _

theorem constraints_saveWallet (hs : Constraints s) (hw : (s.users.get w.userId).isSome) :
    Constraints (s.saveWallet w) := by
  refine ⟨fun y hy => ?_, hs.unique⟩
  rcases Db.Table.mem_save.mp hy with rfl | ⟨hy, -⟩
  · exact hw
  · exact hs.foreignKey y hy

theorem constraints_removeWallet (hs : Constraints s) : Constraints (s.removeWallet w) :=
  ⟨fun y hy => hs.foreignKey y (Db.Table.mem_remove.mp hy).1, hs.unique⟩

/-- Only the metadata of a row changes. -/
theorem primaryAddresses_update (ws : List UserWallet)
    (h : ∀ y ∈ ws, y.id = w.id → SameLink y w) :
    primaryAddresses (ws.map fun y => if y.id = w.id then w else y) = primaryAddresses ws := by
  induction ws with
  | nil => rfl
  | cons y ws ih =>
    have hrest := ih fun z hz => h z (List.mem_cons_of_mem _ hz)
    by_cases hy : y.id = w.id
    · have hlink := h y List.mem_cons_self hy
      rw [List.map_cons, if_pos hy]
      unfold primaryAddresses at hrest ⊢
      by_cases hprimary : y.isPrimary = true
      · rw [List.filter_cons_of_pos (hlink.isPrimary.trans hprimary),
          List.filter_cons_of_pos hprimary, List.map_cons, List.map_cons, hrest,
          hlink.walletAddress]
      · rw [List.filter_cons_of_neg (hlink.isPrimary ▸ hprimary),
          List.filter_cons_of_neg hprimary, hrest]
    · rw [List.map_cons, if_neg hy]
      unfold primaryAddresses at hrest ⊢
      by_cases hprimary : y.isPrimary = true
      · rw [List.filter_cons_of_pos hprimary, List.filter_cons_of_pos hprimary, List.map_cons,
          List.map_cons, hrest]
      · rw [List.filter_cons_of_neg hprimary, List.filter_cons_of_neg hprimary, hrest]

theorem sound_updateWallet (hs : Sound s) (hrow : s.wallets.get w.id = some row)
    (hlink : SameLink row w) : Sound (s.saveWallet w) := by
  constructor
  · refine constraints_saveWallet hs.constraints ?_
    rw [hlink.userId]
    exact hs.constraints.foreignKey row (Db.Table.mem_of_get hrow)
  · intro u hu
    have hsame : ∀ y ∈ s.walletsOf u.id, y.id = w.id → SameLink y w := by
      intro y hy hid
      have hyrow : y = row := Db.Table.key_inj (mem_walletsOf.mp hy).1 (Db.Table.mem_of_get hrow)
        (hid.trans (Db.Table.get_key hrow).symm)
      rw [hyrow]
      exact hlink
    rw [PrimaryOf, walletsOf_update hrow hlink.userId, primaryAddresses_update _ hsame]
    simp only [List.map_eq_nil_iff]
    exact hs.primary u hu

/-- A wallet that is linked to a user with wallets is not the primary one. -/
theorem sound_insertSecondary (hs : Sound s) (hnew : s.wallets.get w.id = none)
    (huser : (s.users.get w.userId).isSome) (hsome : s.walletsOf w.userId ≠ [])
    (hprimary : w.isPrimary = false) : Sound (s.saveWallet w) := by
  refine ⟨constraints_saveWallet hs.constraints huser, fun u hu => ?_⟩
  have hold := hs.primary u hu
  rw [PrimaryOf, walletsOf_insert hnew]
  by_cases hown : w.userId = u.id
  · rw [hown] at hsome
    rw [PrimaryOf, if_neg hsome] at hold
    rw [if_pos hown, if_neg (by simp), primaryAddresses, List.filter_append,
      List.filter_cons_of_neg (by simp [hprimary]), List.filter_nil, List.append_nil]
    exact hold
  · rw [if_neg hown, List.append_nil]
    exact hold

/-- The first wallet of a user is the primary one, and the user row is saved with its address. -/
theorem sound_insertFirst {u : User} (hs : Sound s) (hnew : s.wallets.get w.id = none)
    (huser : (s.users.get w.userId).isSome) (hnone : s.walletsOf w.userId = [])
    (hprimary : w.isPrimary = true) (hid : u.id = w.userId)
    (haddress : u.walletAddress = some w.walletAddress)
    (hconflict : s.userConflict u = none) : Sound ((s.saveWallet w).saveUser u) := by
  have hconstraints := constraints_saveWallet hs.constraints huser
  refine sound_of_wallets hs (constraints_saveUser hconstraints hconflict) rfl ?_ ?_
  · intro v hv
    rw [walletsOf_saveUser, walletsOf_insert hnew, if_neg fun h => hv (h.symm.trans hid.symm),
      List.append_nil]
  · rw [walletsOf_saveUser, walletsOf_insert hnew, hid, hnone, if_pos rfl, List.nil_append, PrimaryOf,
      if_neg (by simp), haddress, primaryAddresses, List.filter_cons_of_pos hprimary]
    rfl

/-- Unlinking a wallet that is not the primary one. -/
theorem sound_removeSecondary (hs : Sound s) (hw : w ∈ s.wallets.rows)
    (hprimary : w.isPrimary = false) : Sound (s.removeWallet w) := by
  refine ⟨constraints_removeWallet hs.constraints, fun u hu => ?_⟩
  have hold := hs.primary u hu
  have hkeep : primaryAddresses ((s.walletsOf u.id).filter fun y => y.id ≠ w.id) =
      primaryAddresses (s.walletsOf u.id) := by
    unfold primaryAddresses
    rw [List.filter_filter]
    congr 1
    refine List.filter_congr fun y hy => ?_
    by_cases hid : y.id = w.id
    · rw [Db.Table.key_inj (mem_walletsOf.mp hy).1 hw hid, hprimary, Bool.false_and]
    · simp [hid]
  rw [PrimaryOf, walletsOf_remove]
  by_cases hnil : s.walletsOf u.id = []
  · rw [PrimaryOf, if_pos hnil] at hold
    rw [hnil, List.filter_nil, if_pos rfl]
    exact hold
  · rw [PrimaryOf, if_neg hnil] at hold
    have hne : ((s.walletsOf u.id).filter fun y => y.id ≠ w.id) ≠ [] := by
      intro hempty
      rw [← hkeep, hempty] at hold
      cases hold
    rw [if_neg hne, hkeep]
    exact hold

/-- The primary row is the only one. -/
theorem eq_of_isPrimary (hs : Sound s) {y : UserWallet} (hw : w ∈ s.wallets.rows)
    (hy : y ∈ s.wallets.rows) (huser : y.userId = w.userId) (hpw : w.isPrimary = true)
    (hpy : y.isPrimary = true) : y = w := by
  have hex := hs.constraints.foreignKey w hw
  obtain ⟨u, hu⟩ := Option.isSome_iff_exists.mp hex
  have hid : u.id = w.userId := Db.Table.get_key hu
  have hold := hs.primary u (Db.Table.mem_of_get hu)
  have hwmem : w ∈ (s.walletsOf u.id).filter UserWallet.isPrimary :=
    List.mem_filter.mpr ⟨mem_walletsOf.mpr ⟨hw, hid.symm⟩, hpw⟩
  have hymem : y ∈ (s.walletsOf u.id).filter UserWallet.isPrimary :=
    List.mem_filter.mpr ⟨mem_walletsOf.mpr ⟨hy, huser.trans hid.symm⟩, hpy⟩
  have hne : s.walletsOf u.id ≠ [] := by
    intro hnil
    rw [hnil] at hwmem
    cases hwmem
  rw [PrimaryOf, if_neg hne, primaryAddresses] at hold
  have hlength := congrArg List.length hold
  rw [List.length_map, List.length_singleton] at hlength
  obtain ⟨z, hz⟩ := List.length_eq_one_iff.mp hlength
  rw [hz] at hwmem hymem
  exact (List.mem_singleton.mp hymem).trans (List.mem_singleton.mp hwmem).symm

/-- Without its primary row a user has no primary row. -/
theorem primaryAddresses_remove (hs : Sound s) (hw : w ∈ s.wallets.rows)
    (hprimary : w.isPrimary = true) :
    primaryAddresses ((s.removeWallet w).walletsOf w.userId) = [] := by
  rw [walletsOf_remove, primaryAddresses, List.filter_filter, List.map_eq_nil_iff,
    List.filter_eq_nil_iff]
  intro y hy hboth
  simp only [Bool.and_eq_true, decide_eq_true_eq, ne_eq] at hboth
  obtain ⟨hy, huser⟩ := mem_walletsOf.mp hy
  exact hboth.2 (by rw [eq_of_isPrimary hs hw hy huser hprimary hboth.1])

theorem walletsOf_remove_of_ne (hw : w ∈ s.wallets.rows) (hne : userId ≠ w.userId) :
    (s.removeWallet w).walletsOf userId = s.walletsOf userId := by
  rw [walletsOf_remove, List.filter_eq_self]
  intro y hy
  obtain ⟨hy, huser⟩ := mem_walletsOf.mp hy
  refine decide_eq_true fun hid => hne ?_
  rw [← huser, Db.Table.key_inj hy hw hid]

/-- Unlinking the last wallet. -/
theorem sound_removeLast {u : User} (hs : Sound s) (hid : u.id = w.userId)
    (hw : w ∈ s.wallets.rows) (hlast : (s.removeWallet w).walletsOf w.userId = [])
    (haddress : u.walletAddress = none) (hconflict : s.userConflict u = none) :
    Sound ((s.removeWallet w).saveUser u) := by
  refine sound_of_wallets hs
    (constraints_saveUser (constraints_removeWallet hs.constraints) hconflict) rfl ?_ ?_
  · intro v hv
    rw [walletsOf_saveUser, walletsOf_remove_of_ne hw (hid ▸ hv)]
  · rw [walletsOf_saveUser, hid, PrimaryOf, if_pos hlast]
    exact haddress

/-- Among rows of which none is primary, one is made primary. -/
theorem primaryAddresses_promote {ws : List UserWallet} {next : UserWallet}
    (hids : (ws.map UserWallet.id).Nodup) (hnone : primaryAddresses ws = []) (hnext : next ∈ ws) :
    primaryAddresses
      (ws.map fun y => if y.id = next.id then { next with isPrimary := true } else y) =
        [some next.walletAddress] := by
  have hno : ∀ y ∈ ws, y.isPrimary = false := by
    intro y hy
    rw [primaryAddresses, List.map_eq_nil_iff, List.filter_eq_nil_iff] at hnone
    exact Bool.not_eq_true _ ▸ hnone y hy
  clear hnone
  induction ws with
  | nil => cases hnext
  | cons y ws ih =>
    obtain ⟨hy, hids⟩ := List.nodup_cons.mp hids
    by_cases hyn : y.id = next.id
    · have hrest : ∀ z ∈ ws, (if z.id = next.id then { next with isPrimary := true } else z) = z := by
        intro z hz
        refine if_neg fun hzn => hy ?_
        exact List.mem_map.mpr ⟨z, hz, hzn.trans hyn.symm⟩
      have hfilter : ws.filter UserWallet.isPrimary = [] :=
        List.filter_eq_nil_iff.mpr fun z hz =>
          Bool.not_eq_true _ ▸ hno z (List.mem_cons_of_mem _ hz)
      rw [List.map_cons, if_pos hyn, List.map_congr_left hrest, List.map_id', primaryAddresses,
        List.filter_cons_of_pos rfl, hfilter]
      rfl
    · have hmem : next ∈ ws := by
        rcases List.mem_cons.mp hnext with rfl | hmem
        · exact absurd rfl hyn
        · exact hmem
      have hyno : ¬ y.isPrimary = true := by
        rw [hno y List.mem_cons_self]
        exact Bool.false_ne_true
      have hrest := ih hids hmem fun z hz => hno z (List.mem_cons_of_mem _ hz)
      rw [List.map_cons, if_neg hyn, primaryAddresses, List.filter_cons_of_neg hyno]
      exact hrest

/-- Unlinking the primary wallet while another one is left. -/
theorem sound_removePrimary {u : User} {next : UserWallet} (hs : Sound s) (hid : u.id = w.userId)
    (hw : w ∈ s.wallets.rows) (hprimary : w.isPrimary = true)
    (hnext : next ∈ (s.removeWallet w).walletsOf w.userId)
    (haddress : u.walletAddress = some next.walletAddress) (hconflict : s.userConflict u = none) :
    Sound (((s.removeWallet w).saveWallet { next with isPrimary := true }).saveUser u) := by
  have hremoved := constraints_removeWallet (w := w) hs.constraints
  obtain ⟨hmem, huser⟩ := mem_walletsOf.mp hnext
  have hstored : (s.removeWallet w).wallets.get { next with isPrimary := true }.id = some next :=
    Db.Table.get_of_mem hmem
  have hsaved : Constraints ((s.removeWallet w).saveWallet { next with isPrimary := true }) :=
    constraints_saveWallet hremoved (hremoved.foreignKey next hmem)
  refine sound_of_wallets hs (constraints_saveUser hsaved hconflict) rfl ?_ ?_
  · intro v hv
    rw [hid] at hv
    rw [walletsOf_saveUser, walletsOf_update hstored rfl, walletsOf_remove_of_ne hw hv]
    refine (List.map_congr_left fun y hy => if_neg fun hyn => hv ?_).trans (List.map_id _)
    obtain ⟨hys, hyv⟩ := mem_walletsOf.mp hy
    rw [← hyv, ← huser, Db.Table.key_inj hys (Db.Table.mem_remove.mp hmem).1 hyn]
  · rw [walletsOf_saveUser, walletsOf_update hstored rfl, hid, PrimaryOf, if_neg, haddress]
    · have hids : (((s.removeWallet w).walletsOf w.userId).map UserWallet.id).Nodup :=
        ((s.removeWallet w).wallets.nodup).sublist (List.filter_sublist.map _)
      have hpromote := primaryAddresses_promote hids (primaryAddresses_remove hs hw hprimary) hnext
      exact hpromote
    · rw [List.map_eq_nil_iff]
      exact List.ne_nil_of_mem hnext

end Wallets

/-- No session saves a user row from a copy whose wallet address is not the stored one. -/
def KeepsPrimary : AllowedStep Store Tick Cmd
  | s, _, .saveUser .session loaded _ =>
    (s.users.get loaded.id).map User.walletAddress = some loaded.walletAddress
  | _, _, _ => True

instance (s : Store) (x : Tick) (c : Cmd) : Decidable (KeepsPrimary s x c) := by
  unfold KeepsPrimary
  split <;> infer_instance

section Calls
variable {Ok : AllowedStep Store Tick Cmd} {s t : Store} {userId address : JsStr} {α β : Type}

theorem sound_linkWallet {u : User} {info : WalletMeta} {count : ℕ} {o : Except Failure User}
    (hs : Sound s) (hu : s.users.get u.id = some u) (hcount : count = (s.walletsOf u.id).length)
    (h : (linkWallet u address info count).Runs exec Ok s o t) :
    Sound t ∧ s.wallets.Keeps SameLink t.wallets := by
  obtain ⟨x, -, h⟩ := h
  have huser : (s.users.get u.id).isSome := by rw [hu]; rfl
  simp only [exec] at h
  split at h
  · obtain ⟨-, rfl⟩ := h
    exact ⟨hs, Db.Table.Keeps.refl SameLink.refl _⟩
  · rename_i hconflict
    have hnew : s.wallets.get x.newId = none := by
      unfold Store.walletConflict at hconflict
      split_ifs at hconflict with hid
      exact Option.not_isSome_iff_eq_none.mp hid
    have hgrow : ∀ v : UserWallet, v.id = x.newId →
        s.wallets.Keeps SameLink (s.saveWallet v).wallets := by
      intro v hv
      refine Db.Table.keeps_save SameLink.refl fun r hr => ?_
      rw [hv, hnew] at hr
      cases hr
    simp only [Prog.settle_ret, Prog.onOk, attempt, Prog.bind_eq_settle] at h
    by_cases hfirst : count = 0
    · rw [if_pos hfirst] at h
      have hnone : s.walletsOf u.id = [] := List.length_eq_zero_iff.mp (hcount.symm.trans hfirst)
      have hfree := userConflict_of_columns hs.constraints
        (u := { u with walletAddress := some address, walletLinkedAt := some x.now }) hu rfl rfl rfl
      obtain ⟨-, ⟨hno, -, rfl⟩ | ⟨hsome, -⟩⟩ := runs_saveUser h
      · exact ⟨sound_insertFirst hs hnew huser hnone (decide_eq_true hfirst) rfl rfl hno, hgrow _ rfl⟩
      · change (s.userConflict _).isSome at hsome
        rw [hfree] at hsome
        cases hsome
    · rw [if_neg hfirst] at h
      obtain ⟨-, rfl⟩ := h
      refine ⟨sound_insertSecondary hs hnew huser (fun hnil => hfirst ?_) (decide_eq_false hfirst),
        hgrow _ rfl⟩
      rw [hcount, hnil]
      rfl

theorem sound_addWalletAddress {info : Option WalletMeta} {o : Except Failure User} (hs : Sound s)
    (h : (addWalletAddress userId address info).Runs exec Ok s o t) :
    Sound t ∧ s.wallets.Keeps SameLink t.wallets := by
  have hrefl := Db.Table.Keeps.refl SameLink.refl s.wallets
  rcases runs_findByIdOrFail h with ⟨-, rfl⟩ | ⟨u, hu, h⟩
  · exact ⟨hs, hrefl⟩
  obtain ⟨x, -, h⟩ := h
  simp only [exec] at h
  cases hfound : s.findWallet userId address with
  | some row =>
    rw [hfound] at h
    have hmem : row ∈ s.walletsOf userId := List.mem_of_find?_eq_some hfound
    have hstored := Db.Table.get_of_mem (mem_walletsOf.mp hmem).1
    cases info with
    | none =>
      obtain ⟨-, rfl⟩ := h
      exact ⟨hs, hrefl⟩
    | some m =>
      obtain ⟨y, -, -, rfl⟩ := h
      refine ⟨sound_updateWallet hs hstored ⟨rfl, rfl, rfl⟩, ?_⟩
      refine Db.Table.keeps_save SameLink.refl fun z hz => ?_
      obtain rfl := Option.some.inj (hz.symm.trans hstored)
      exact ⟨rfl, rfl, rfl⟩
  | none =>
    rw [hfound] at h
    obtain ⟨y, -, h⟩ := h
    have hid : u.id = userId := Db.Table.get_key hu
    exact sound_linkWallet hs (hid.symm ▸ hu) (by rw [hid]; rfl) h

/-- The next primary wallet is one of those that are left. -/
theorem mem_of_oldestWallet {w : UserWallet} (h : s.oldestWallet userId = some w) :
    w ∈ s.walletsOf userId :=
  (List.perm_insertionSort _ _).mem_iff.mp (List.mem_of_mem_head? h)

theorem walletsOf_of_oldestWallet (h : s.oldestWallet userId = none) : s.walletsOf userId = [] := by
  have hnil := List.head?_eq_none_iff.mp h
  exact ((List.perm_insertionSort _ _).symm.trans (List.Perm.of_eq hnil)).eq_nil

theorem sound_promoteOldest {u : User} {row : UserWallet} {o : Except Failure User} (hs : Sound s)
    (hu : s.users.get u.id = some u) (hrow : row ∈ s.wallets.rows) (hid : u.id = row.userId)
    (hprimary : row.isPrimary = true)
    (h : (promoteOldest u).Runs exec Ok (s.removeWallet row) o t) : Sound t := by
  have hfree : ∀ v : User, v.id = u.id → v.googleId = u.googleId → v.privyId = u.privyId →
      v.email = u.email → s.userConflict v = none := fun v hvid hg hp he =>
    userConflict_of_columns hs.constraints (hvid.symm ▸ hu) hg hp he
  obtain ⟨x, -, h⟩ := h
  simp only [exec] at h
  cases hnext : (s.removeWallet row).oldestWallet u.id with
  | none =>
    rw [hnext] at h
    have hlast := hid ▸ walletsOf_of_oldestWallet hnext
    have hno := hfree { u with walletAddress := none, walletLinkedAt := none } rfl rfl rfl rfl
    obtain ⟨-, ⟨-, -, rfl⟩ | ⟨hsome, -⟩⟩ := runs_saveUser h
    · exact sound_removeLast hs hid hrow hlast rfl hno
    · change (s.userConflict _).isSome at hsome
      rw [hno] at hsome
      cases hsome
  | some next =>
    rw [hnext] at h
    obtain ⟨y, -, h⟩ := h
    have hno := hfree { u with walletAddress := some next.walletAddress,
                               walletLinkedAt := some next.linkedAt } rfl rfl rfl rfl
    obtain ⟨-, ⟨-, -, rfl⟩ | ⟨hsome, -⟩⟩ := runs_saveUser h
    · exact sound_removePrimary hs hid hrow hprimary (hid ▸ mem_of_oldestWallet hnext) rfl hno
    · change (s.userConflict _).isSome at hsome
      rw [hno] at hsome
      cases hsome

theorem sound_removeWallet {o : Except Failure User} (hs : Sound s)
    (h : (removeWallet userId address).Runs exec Ok s o t) : Sound t := by
  rcases runs_findByIdOrFail h with ⟨-, rfl⟩ | ⟨u, hu, h⟩
  · exact hs
  obtain ⟨x, -, h⟩ := h
  simp only [exec] at h
  cases hfound : s.findWallet userId address with
  | none =>
    rw [hfound] at h
    exact h.2 ▸ hs
  | some row =>
    rw [hfound] at h
    obtain ⟨y, -, h⟩ := h
    simp only [exec] at h
    obtain ⟨hrow, huser⟩ := mem_walletsOf.mp (List.mem_of_find?_eq_some hfound)
    have hkey := Db.Table.get_key hu
    by_cases hprimary : row.isPrimary = true
    · rw [if_pos hprimary] at h
      exact sound_promoteOldest hs (hkey.symm ▸ hu) hrow (hkey.trans huser.symm) hprimary h
    · rw [if_neg hprimary] at h
      obtain ⟨-, rfl⟩ := h
      exact sound_removeSecondary hs hrow (Bool.not_eq_true _ ▸ hprimary)

def Listed (s : Store) (existing : List UserWallet) : Prop :=
  ∀ r ∈ existing, ∃ r', s.wallets.get r.id = some r' ∧ SameLink r r'

theorem Listed.mono {existing : List UserWallet} (h : Listed s existing)
    (hkeeps : s.wallets.Keeps SameLink t.wallets) : Listed t existing := by
  intro r hr
  obtain ⟨r', hr', hlink⟩ := h r hr
  obtain ⟨r'', hr'', hlink'⟩ := hkeeps r.id r' hr'
  exact ⟨r'', hr'', hlink.trans _ _ _ hlink'⟩

theorem sameLink_patchMetadata (row : UserWallet) (link : ParsedWalletLink)
    (source : WalletSource) : SameLink row (row.patchMetadata link source) := ⟨rfl, rfl, rfl⟩

theorem SameLink.symm {a b : UserWallet} (h : SameLink a b) : SameLink b a :=
  ⟨h.userId.symm, h.walletAddress.symm, h.isPrimary.symm⟩

theorem sound_addDesired {links : List ParsedWalletLink} {existing : List UserWallet}
    {o : Except Failure (List UserWallet)} (hs : Sound s) (hlisted : Listed s existing)
    (h : (addDesired userId links existing).Runs exec Ok s o t) : Sound t := by
  induction links generalizing s existing with
  | nil => exact h.2 ▸ hs
  | cons link links ih =>
    unfold addDesired at h
    cases hfound : existingByAddress existing link.address with
    | some row =>
      rw [hfound] at h
      obtain ⟨x, -, h⟩ := h
      have hrow : row ∈ existing := List.mem_reverse.mp (List.mem_of_find?_eq_some hfound)
      obtain ⟨stored, hstored, hlink⟩ := hlisted row hrow
      have hpatch := hlink.symm.trans _ _ _ (sameLink_patchMetadata row link .privySync)
      have hsound : Sound (s.saveWallet (row.patchMetadata link .privySync)) :=
        sound_updateWallet hs hstored hpatch
      refine ih hsound ?_ h
      intro r hr
      obtain ⟨r', hr', rfl⟩ := List.mem_map.mp hr
      by_cases hid : r'.id = (row.patchMetadata link .privySync).id
      · rw [if_pos hid]
        exact ⟨_, Db.Table.get_save_self _ _, SameLink.refl _⟩
      · rw [if_neg hid]
        obtain ⟨r'', hr'', hlink'⟩ := hlisted r' hr'
        exact ⟨r'', (Db.Table.get_save_of_ne hid).trans hr'', hlink'⟩
    | none =>
      rw [hfound] at h
      obtain ⟨r, u, hswallow, h⟩ := Prog.runs_settle.mp h
      obtain ⟨o', v, hadd, -, rfl⟩ := Prog.runs_settle.mp hswallow
      obtain ⟨hsound, hkeeps⟩ := sound_addWalletAddress hs hadd
      cases r with
      | ok a => exact ih hsound (hlisted.mono hkeeps) h
      | error e => exact h.2 ▸ hsound

theorem sound_dropUndesired {desired : List JsStr} {rows : List UserWallet}
    {o : Except Failure Unit} (hs : Sound s)
    (h : (eachDo (dropUndesired userId desired) rows).Runs exec Ok s o t) : Sound t := by
  induction rows generalizing s with
  | nil => exact h.2 ▸ hs
  | cons row rows ih =>
    have hdrop : ∀ o u, (dropUndesired userId desired row).Runs exec Ok s o u → Sound u := by
      intro o u hrun
      unfold dropUndesired at hrun
      split_ifs at hrun
      · exact hrun.2 ▸ hs
      · exact hrun.2 ▸ hs
      · obtain ⟨r, v, hremove, -, rfl⟩ := Prog.runs_settle.mp hrun
        exact sound_removeWallet hs hremove
    rcases Prog.runs_bind.mp h with ⟨a, u, hu, h⟩ | ⟨e, he, -⟩
    · exact ih (hdrop _ u hu) h
    · exact hdrop _ t he

theorem sound_syncPrivyWallets {getAddress : JsStr → Option JsStr} {links : List ParsedWalletLink}
    {o : Except Failure Unit} (hs : Sound s)
    (h : (syncPrivyWallets getAddress userId links).Runs exec Ok s o t) : Sound t := by
  obtain ⟨x, -, h⟩ := Prog.runs_call_bind.mp h
  have hlisted : Listed s (s.listWallets userId) := by
    intro r hr
    have hmem := (List.perm_insertionSort _ _).mem_iff.mp hr
    exact ⟨r, Db.Table.get_of_mem (mem_walletsOf.mp hmem).1, SameLink.refl r⟩
  rcases Prog.runs_bind.mp h with ⟨existing, u, hadd, h⟩ | ⟨e, he, -⟩
  · exact sound_dropUndesired (sound_addDesired hs hlisted hadd) h
  · exact sound_addDesired hs hlisted he

end Calls

theorem sound_congr {s t : Store} (hs : Sound s) (husers : t.users = s.users)
    (hwallets : t.wallets = s.wallets) (hemail : t.emailUnique = s.emailUnique) : Sound t := by
  obtain ⟨users, wallets, providers, kycEvents, partners, emailUnique⟩ := t
  subst husers hwallets hemail
  exact ⟨⟨hs.constraints.foreignKey, hs.constraints.unique⟩, hs.primary⟩

/-- A new user has no wallets. -/
theorem sound_insertUser {s : Store} {u : User} (hs : Sound s) (hnew : s.users.get u.id = none)
    (hu : s.userConflict u = none) (haddress : u.walletAddress = none) : Sound (s.saveUser u) := by
  refine sound_of_wallets hs (constraints_saveUser hs.constraints hu) rfl (fun _ _ => rfl) ?_
  have hnil : s.walletsOf u.id = [] := by
    refine List.eq_nil_iff_forall_not_mem.mpr fun w hw => ?_
    obtain ⟨hw, hid⟩ := mem_walletsOf.mp hw
    have hsome := hs.constraints.foreignKey w hw
    rw [hid, hnew] at hsome
    cases hsome
  rw [walletsOf_saveUser, PrimaryOf, if_pos hnil]
  exact haddress

theorem sound_exec {s : Store} {x : Tick} {c : Cmd} (hc : Quiet c) (hok : KeepsPrimary s x c)
    (hs : Sound s) : Sound (exec s x c).2 := by
  cases c with
  | insertUser u =>
    simp only [exec]
    split_ifs with hid
    · exact hs
    · split
      · exact hs
      · exact sound_insertUser hs (Option.not_isSome_iff_eq_none.mp hid) ‹_› hc
  | saveUser writer loaded u =>
    obtain ⟨rfl, hcopy⟩ := hc
    simp only [exec]
    split
    · exact hs
    · rename_i hconflict
      obtain ⟨stored, hstored, haddress⟩ := Option.map_eq_some_iff.mp hok
      refine (sound_saveUser_iff hs hconflict (hcopy.id ▸ hstored)).mpr ?_
      rw [hcopy.walletAddress, haddress]
  | insertWallet w => exact hc.elim
  | saveWallet w => exact hc.elim
  | removeWallet w => exact hc.elim
  | insertProvider p =>
    simp only [exec, Store.saveProvider]
    split_ifs
    · exact hs
    · exact hs
    · exact sound_congr hs rfl rfl rfl
  | saveProvider p =>
    simp only [exec, Store.saveProvider]
    split_ifs
    · exact hs
    · exact sound_congr hs rfl rfl rfl
  | insertKycEvent e => exact sound_congr hs rfl rfl rfl
  | _ => exact hs

section Login
variable {getAddress : JsStr → Option JsStr} {s t : Store} {α β : Type}

theorem sound_of_quiet {p : M α} {o : Except Failure α} (hs : Sound s) (hp : p.Issues Quiet)
    (h : p.Runs exec KeepsPrimary s o t) : Sound t := by
  have hstep : ∀ c, Quiet c → ∀ u x, KeepsPrimary u x c → Sound u → Sound (exec u x c).2 :=
    fun c hc u x hok hu => sound_exec hc hok hu
  exact Prog.runs_keeps hstep hp h hs

theorem sound_syncPrivyIdentity {userId : JsStr} {providers : List ParsedAuthProvider}
    {links : List ParsedWalletLink} {o : Except Failure Unit} (hs : Sound s)
    (h : (syncPrivyIdentity getAddress userId providers links).Runs exec KeepsPrimary s o t) :
    Sound t := by
  rcases Prog.runs_bind.mp h with ⟨a, u, hu, h⟩ | ⟨e, he, -⟩
  · exact sound_syncPrivyWallets (sound_of_quiet hs (quiet_syncAuthProviders _ _) hu) h
  · exact sound_of_quiet hs (quiet_syncAuthProviders _ _) he

theorem sound_patchPrivyProfileIfNeeded {loaded user : User} {params : PrivyParams}
    {o : Except Failure User} (hcopy : CopyOf loaded user) (hs : Sound s)
    (h : (patchPrivyProfileIfNeeded loaded user params).Runs exec KeepsPrimary s o t) :
    Sound t ∧ ∀ a, o = .ok a → CopyOf loaded a := by
  refine ⟨sound_of_quiet hs (quiet_patchPrivyProfileIfNeeded hcopy) h, fun a ha => ?_⟩
  exact copyOf_of_yields hcopy (ha ▸ Prog.yields_of_runs h)

theorem sound_finishPrivySessionSync {loaded : User} {params : PrivyParams}
    {o : Except Failure PrivyLogin} (hs : Sound s)
    (h : (finishPrivySessionSync getAddress loaded params).Runs exec KeepsPrimary s o t) :
    Sound t := by
  rcases Prog.runs_bind.mp h with ⟨user, u, hpatch, h⟩ | ⟨e, he, -⟩
  · obtain ⟨hu, hcopy⟩ := sound_patchPrivyProfileIfNeeded (CopyOf.refl loaded) hs hpatch
    have hcopy := hcopy user rfl
    rcases Prog.runs_bind.mp h with ⟨a, v, hsync, h⟩ | ⟨e, he, -⟩
    · refine sound_of_quiet (sound_syncPrivyIdentity hu hsync) ?_ h
      refine Prog.issues_bind (Prog.issues_call trivial) fun at_ => ?_
      refine Prog.issues_bind (issues_saveUser ⟨rfl, hcopy.touch⟩) fun saved => ?_
      exact Prog.issues_bind (Prog.issues_call trivial) fun _ => Prog.issues_ret _
    · exact sound_syncPrivyIdentity hu he
  · exact (sound_patchPrivyProfileIfNeeded (CopyOf.refl loaded) hs he).1

theorem sound_linkRefused {params : PrivyParams} {e : DbError} {o : Except Failure PrivyLogin}
    (hs : Sound s) (h : (linkRefused getAddress params e).Runs exec KeepsPrimary s o t) :
    Sound t := by
  unfold linkRefused at h
  split at h
  · obtain ⟨x, -, h⟩ := Prog.runs_call_bind.mp h
    split at h
    · exact sound_finishPrivySessionSync hs h
    · exact h.2 ▸ hs
  · exact h.2 ▸ hs
  · exact h.2 ▸ hs

theorem sound_linkPrivyToExistingUser {loaded : User} {params : PrivyParams}
    {o : Except Failure PrivyLogin} (hs : Sound s)
    (h : (linkPrivyToExistingUser getAddress loaded params).Runs exec KeepsPrimary s o t) :
    Sound t := by
  have hlinked : CopyOf loaded { loaded with privyId := some params.privyId } :=
    ⟨rfl, rfl, rfl, rfl⟩
  rcases Prog.runs_bind.mp h with ⟨user, u, hpatch, h⟩ | ⟨e, he, -⟩
  · obtain ⟨hu, hcopy⟩ := sound_patchPrivyProfileIfNeeded hlinked hs hpatch
    have hcopy := hcopy user rfl
    obtain ⟨x, -, h⟩ := Prog.runs_call_bind.mp h
    obtain ⟨y, hok, h⟩ := Prog.runs_call_bind.mp h
    have hsaved := sound_exec (c := .saveUser .session loaded
      { user with lastPrivySyncAt := some x.now }) ⟨rfl, hcopy.touch⟩ hok hu
    split at h
    · exact sound_linkRefused hsaved h
    · rcases Prog.runs_bind.mp h with ⟨a, v, hsync, h⟩ | ⟨e, he, -⟩
      · refine sound_of_quiet (sound_syncPrivyIdentity hsaved hsync) ?_ h
        exact Prog.issues_bind (Prog.issues_call trivial) fun _ => Prog.issues_ret _
      · exact sound_syncPrivyIdentity hsaved he
  · exact (sound_patchPrivyProfileIfNeeded hlinked hs he).1

theorem sound_findByGoogleId {googleId : JsStr} {o : Except Failure (Option User)} (hs : Sound s)
    (h : (findByGoogleId googleId).Runs exec KeepsPrimary s o t) : Sound t := by
  refine sound_of_quiet hs ?_ h
  unfold findByGoogleId
  split_ifs
  · exact Prog.issues_ret _
  · exact Prog.issues_call trivial

theorem sound_createRefused {params : PrivyParams} {e : DbError} {o : Except Failure PrivyLogin}
    (hs : Sound s) (h : (createRefused getAddress params e).Runs exec KeepsPrimary s o t) :
    Sound t := by
  unfold createRefused at h
  split at h
  · obtain ⟨x, -, h⟩ := Prog.runs_call_bind.mp h
    split at h
    · exact sound_finishPrivySessionSync hs h
    · exact h.2 ▸ hs
  · rcases Prog.runs_bind.mp h with ⟨raced, u, hfind, h⟩ | ⟨e, he, -⟩
    · have hu := sound_findByGoogleId hs hfind
      cases raced with
      | some user => exact sound_linkPrivyToExistingUser hu h
      | none => exact h.2 ▸ hu
    · exact sound_findByGoogleId hs he
  · exact h.2 ▸ hs
  · exact h.2 ▸ hs

theorem sound_createFromPrivy {params : PrivyParams} {o : Except Failure PrivyLogin} (hs : Sound s)
    (h : (createFromPrivy getAddress params).Runs exec KeepsPrimary s o t) : Sound t := by
  obtain ⟨x, -, h⟩ := Prog.runs_call_bind.mp h
  obtain ⟨y, hok, h⟩ := Prog.runs_call_bind.mp h
  have hinserted := sound_exec (by exact rfl) hok hs
  split at h
  · exact sound_createRefused hinserted h
  · rcases Prog.runs_bind.mp h with ⟨a, v, hsync, h⟩ | ⟨e, he, -⟩
    · refine sound_of_quiet (sound_syncPrivyIdentity hinserted hsync) ?_ h
      exact Prog.issues_bind (Prog.issues_call trivial) fun _ => Prog.issues_ret _
    · exact sound_syncPrivyIdentity hinserted he

theorem sound_linkOrCreate {params : PrivyParams} {o : Except Failure PrivyLogin} (hs : Sound s)
    (h : (linkOrCreate getAddress params).Runs exec KeepsPrimary s o t) : Sound t := by
  rcases Prog.runs_bind.mp h with ⟨byGoogle, u, hfind, h⟩ | ⟨e, he, -⟩
  · have hu := sound_findByGoogleId hs hfind
    cases byGoogle with
    | some user => exact sound_linkPrivyToExistingUser hu h
    | none =>
      obtain ⟨x, -, h⟩ := Prog.runs_call_bind.mp h
      split at h
      · exact sound_linkPrivyToExistingUser hu h
      · exact sound_createFromPrivy hu h
  · exact sound_findByGoogleId hs he

theorem sound_findOrCreateFromPrivy {params : PrivyParams} {o : Except Failure PrivyLogin}
    (hs : Sound s) (h : (findOrCreateFromPrivy getAddress params).Runs exec KeepsPrimary s o t) :
    Sound t := by
  obtain ⟨x, -, h⟩ := Prog.runs_call_bind.mp h
  split at h
  · exact sound_finishPrivySessionSync hs h
  · exact sound_linkOrCreate hs h

end Login

inductive WalletCall where
  | findOrCreateFromPrivy (params : PrivyParams)
  | addWalletAddress (userId address : JsStr) (info : Option WalletMeta)
  | removeWallet (userId address : JsStr)

def WalletCall.task (getAddress : JsStr → Option JsStr) : WalletCall → M Unit
  | findOrCreateFromPrivy params => (Users.findOrCreateFromPrivy getAddress params).discard
  | addWalletAddress userId address info => (Users.addWalletAddress userId address info).discard
  | removeWallet userId address => (Users.removeWallet userId address).discard

theorem sound_task {getAddress : JsStr → Option JsStr} {s t : Store} {o : Except Failure Unit}
    (call : WalletCall) (hs : Sound s)
    (h : (call.task getAddress).Runs exec KeepsPrimary s o t) : Sound t := by
  cases call with
  | findOrCreateFromPrivy params =>
    obtain ⟨r, hr, -⟩ := Prog.runs_discard.mp h
    exact sound_findOrCreateFromPrivy hs hr
  | addWalletAddress userId address info =>
    obtain ⟨r, hr, -⟩ := Prog.runs_discard.mp h
    exact (sound_addWalletAddress hs hr).1
  | removeWallet userId address =>
    obtain ⟨r, hr, -⟩ := Prog.runs_discard.mp h
    exact sound_removeWallet hs hr

/-- In every run in which no session saves a user from a copy with an outdated wallet address, the
wallet address of every user is that of the one primary row, and null without rows. -/
theorem primaryWallets_of_calls {getAddress : JsStr → Option JsStr}
    {cs : List (WalletCall × Except Failure Unit)} {s t : Store} (hs : Constraints s)
    (hprimary : PrimaryWallets s)
    (hrun : Calls exec KeepsPrimary (WalletCall.task getAddress) cs s t) : PrimaryWallets t := by
  have hsound : Sound t := calls_keep (fun c _ u v hcall hu => sound_task c.1 hu hcall) hrun
    ⟨hs, hprimary⟩
  exact hsound.primary

section Runs

def walletA : JsStr := js "0x1111111111111111111111111111111111111111"

def walletB : JsStr := js "0x2222222222222222222222222222222222222222"

def privyWallet (address : JsStr) : ParsedWalletLink :=
  { address, chainType := js "ethereum", walletKind := .external }

def alice : User :=
  { id := js "u1", email := js "alice@example.com", name := some (js "Alice"), emailVerified := true,
    privyId := some (js "did:1"), walletAddress := some walletA, walletLinkedAt := some 1 }

def aliceWallet : UserWallet :=
  { id := js "w1", userId := js "u1", walletAddress := walletA, isPrimary := true,
    source := .privySync, linkedAt := 1 }

def aliceStore : Store :=
  { emptyStore with users := ⟨[alice], by decide⟩, wallets := ⟨[aliceWallet], by decide⟩ }

theorem constraints_aliceStore : Constraints aliceStore := ⟨by decide, by decide⟩

def aliceLogin (wallets : List ParsedWalletLink) : PrivyParams :=
  { privyId := js "did:1", email := js "alice@example.com", name := some (js "Alice"),
    emailVerified := some true, wallets := some wallets }

/-- A login that adds a wallet, and a second account with its first wallet. -/
def twoLogins : List (WalletCall × Tick) :=
  [(.findOrCreateFromPrivy (aliceLogin [privyWallet walletA, privyWallet walletB]), ⟨5, js "w2"⟩),
    (.findOrCreateFromPrivy { privyId := js "did:2", email := js "bob@example.com" }, ⟨6, js "u2"⟩),
    (.addWalletAddress (js "u2") walletB none, ⟨7, js "w3"⟩)]

theorem primaryWallets_of_logins : ∃ cs t,
    Calls exec KeepsPrimary (WalletCall.task digitsAddress) cs aliceStore t ∧
      t.users.rows.map User.walletAddress = [some walletA, some walletB] ∧ PrimaryWallets t := by
  obtain ⟨cs, t, hrun, ht⟩ : ∃ cs t,
      Calls exec KeepsPrimary (WalletCall.task digitsAddress) cs aliceStore t ∧
        t.users.rows.map User.walletAddress = [some walletA, some walletB] :=
    exists_calls_of_tryCalls twoLogins (fun t : Store => t.users.rows.map User.walletAddress)
      (by decide)
  exact ⟨cs, t, hrun, ht, primaryWallets_of_calls constraints_aliceStore (by decide) hrun⟩

/-- Alice has unlinked her only wallet at Privy. -/
def loginWithoutWallets : List (WalletCall × Tick) :=
  [(.findOrCreateFromPrivy (aliceLogin []), ⟨5, []⟩)]

/-- Her next login removes the wallet row and leaves its address on her account. -/
theorem unlinked_wallet_identifies : Constraints aliceStore ∧ PrimaryWallets aliceStore ∧
    ∃ cs t, Calls exec anyAnswer (WalletCall.task digitsAddress) cs aliceStore t ∧
      t.wallets.rows = [] ∧ t.users.rows.map User.walletAddress = [some walletA] ∧
      ¬ PrimaryWallets t := by
  obtain ⟨cs, t, hrun, ht⟩ : ∃ cs t,
      Calls exec anyAnswer (WalletCall.task digitsAddress) cs aliceStore t ∧
        (t.wallets.rows, t.users.rows.map User.walletAddress, decide (PrimaryWallets t)) =
          ([], [some walletA], false) :=
    exists_calls_of_tryCalls loginWithoutWallets
      (fun t : Store => (t.wallets.rows, t.users.rows.map User.walletAddress,
        decide (PrimaryWallets t))) (by decide)
  obtain ⟨hwallets, hrest⟩ := Prod.mk.inj ht
  obtain ⟨haddress, hnot⟩ := Prod.mk.inj hrest
  exact ⟨constraints_aliceStore, by decide, cs, t, hrun, hwallets, haddress,
    of_decide_eq_false hnot⟩

end Runs

end Users
