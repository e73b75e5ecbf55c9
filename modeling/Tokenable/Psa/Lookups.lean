import Mathlib.Data.List.Basic
import Tokenable.Async.SharedLoad
import Tokenable.Async.Triple
import Tokenable.Cards.BucketKey
import Tokenable.Psa.PublicApi

/-!
# Lookups at PSA that run at once

Any number of lookups run interleaved, with any responses and any readings of the clock. A success
is the record of the number it was asked for, read by a lookup that was still in flight when the
reader came, or from the cache while it lasts. One lookup of a number runs at a time, and asks PSA
a bounded number of times.

`exchanges` lists the requests with what came of them, `stores` the writes to the caches with the
time at which they were made.
-/

namespace PsaPublicApi
open Js Async

structure Exchange where
  load : ℕ
  endpoint : Endpoint
  digits : JsStr
  token : JsStr
  response : Except JsStr Response

structure Store (F : Type) where
  tokenPoolIndex : ℕ := 0
  desk : Desk Key (LookupResult F) := {}
  exchanges : List Exchange := []
  stores : List (Key × LookupResult F × ℤ) := []

/-- How a lookup goes on after its first, uninterrupted part. -/
inductive Way (F : Type) where
  | answered (result : LookupResult F)
  | joined (load : ℕ)
  | started (load : ℕ) (digits token : JsStr)

/-- `start` counts the lookups that had settled, and `now` is what the clock showed. -/
structure Entered (F : Type) where
  start : ℕ
  now : ℤ
  way : Way F

inductive Cmd (F : Type) where
  | enter (e : Endpoint) (certRaw : Option JsStr) (bypassCache : Bool)
  | fetch (load : ℕ) (e : Endpoint) (digits token : JsStr)
  | sleep
  | store (key : Key) (result : LookupResult F) (ttlMs : ℕ)
  | finish (load : ℕ) (key : Key) (result : LookupResult F)
  | join (load : ℕ)

abbrev Res (F : Type) : Cmd F → Type
  | .enter .. => Entered F
  | .fetch .. => Except JsStr Response
  | .sleep => Unit
  | .store .. => Unit
  | .finish .. => Unit
  | .join _ => LookupResult F

structure World where
  now : ℤ := 0
  response : Except JsStr Response := .error []

/-- A lookup that has settled. -/
structure Answer (F : Type) where
  endpoint : Endpoint
  certRaw : Option JsStr
  bypassCache : Bool
  start : ℕ
  now : ℤ
  result : LookupResult F

abbrev M (F : Type) := Prog (Cmd F) (Res F) Empty

/-- `certRaw?.replace(/\D/g, "") ?? ""` -/
def digitsOf (certRaw : Option JsStr) : JsStr := (certRaw.getD []).filter Char.isDigit

def ttlOf (cfg : PsaConfig) (bypassCache : Bool) : ℕ := if bypassCache then 0 else cfg.cacheTtlMs

section Service
variable {F : Type} (N : Numbers F) (parse : JsStr → Option (Json F)) (cfg : PsaConfig)

def perform (c : Cmd F) : M F (Res F c) := .call c fun r => .ret (.ok r)

/-- The loop of attempts, with `left` more after this one. -/
def fetchFrom (load : ℕ) (e : Endpoint) (digits token : JsStr) :
    ℕ → M F (Except JsStr Response)
  | 0 => perform (.fetch load e digits token)
  | left + 1 => do
    let r ← perform (.fetch load e digits token)
    match r with
    | .ok res =>
      if res.status = 429 then do
        perform .sleep
        fetchFrom load e digits token left
      else pure (.ok res)
    | .error message => pure (.error message)

/-- What the lookup makes of the last response, or of the failure of the request. -/
def resultOf (e : Endpoint) (digits : JsStr) : Except JsStr Response → LookupResult F
  | .error message => .error digits (.str message) none false
  | .ok res =>
    match interpret N parse e digits res with
    | .ok result => result
    | .error _ =>
      .error digits (.str (js "Cannot convert object to primitive value")) none false

def LookupResult.isSuccess : LookupResult F → Bool
  | .success .. => true
  | _ => false

/-- `runGetByCertNumber`, `runGetByCertNumberForFileAppend` and `runGetImagesByCertNumber`. -/
def runLookup (load : ℕ) (e : Endpoint) (digits token : JsStr) (bypassCache : Bool) :
    M F (LookupResult F) := do
  let fetched ← fetchFrom load e digits token cfg.getMaxRetries
  let result := resultOf N parse e digits fetched
  if result.isSuccess ∧ 0 < ttlOf cfg bypassCache then do
    perform (.store (e.key digits) result (ttlOf cfg bypassCache))
    pure result
  else pure result

def takeWay (e : Endpoint) (bypassCache : Bool) : Way F → M F (LookupResult F)
  | .answered result => pure result
  | .joined load => perform (.join load)
  | .started load digits token => do
    let result ← runLookup N parse cfg load e digits token bypassCache
    perform (.finish load (e.key digits) result)
    pure result

def lookup (e : Endpoint) (certRaw : Option JsStr) (bypassCache : Bool) : M F (Answer F) := do
  let entered ← perform (.enter e certRaw bypassCache)
  let result ← takeWay N parse cfg e bypassCache entered.way
  pure ⟨e, certRaw, bypassCache, entered.start, entered.now, result⟩

inductive Call where
  | getByCertNumber (certRaw : Option JsStr) (bypassCache : Bool)
  | getByCertNumberForFileAppend (certRaw : Option JsStr)
  | getImagesByCertNumber (certRaw : Option JsStr)

def Call.task : Call → M F (Answer F)
  | .getByCertNumber certRaw bypassCache => lookup N parse cfg .getByCertNumber certRaw bypassCache
  | .getByCertNumberForFileAppend certRaw =>
    lookup N parse cfg .getByCertNumberForFileAppend certRaw false
  | .getImagesByCertNumber certRaw => lookup N parse cfg .getImagesByCertNumber certRaw false

def Store.nextToken (s : Store F) : Option JsStr × Store F :=
  match (buildTokenPool cfg)[s.tokenPoolIndex % (buildTokenPool cfg).length]? with
  | some token =>
    (some token,
      { s with tokenPoolIndex := (s.tokenPoolIndex + 1) % (buildTokenPool cfg).length })
  | none => (none, s)

def Store.look (s : Store F) (i : ℕ) (now : ℤ) (e : Endpoint) (digits token : JsStr)
    (bypassCache : Bool) : Way F × Store F :=
  let seat := s.desk.enter now (0 < ttlOf cfg bypassCache) i (e.key digits)
  (match seat.1 with
    | .hit result => .answered result
    | .joined load => .joined load
    | .started load => .started load digits token,
    { s with desk := seat.2 })

def Store.seat (s : Store F) (i : ℕ) (now : ℤ) (e : Endpoint) (certRaw : Option JsStr)
    (token : JsStr) (bypassCache : Bool) : Way F × Store F :=
  if (digitsOf certRaw).isEmpty then (.answered (.skipped .noCert), s)
  else if (digitsOf certRaw).length < 7 ∨ 10 < (digitsOf certRaw).length then
    (.answered (.skipped .invalidCert), s)
  else s.look cfg i now e (digitsOf certRaw) token bypassCache

/-- The part of a lookup up to its first `await`. A token is taken before the number is checked. -/
def Store.enter (s : Store F) (i : ℕ) (now : ℤ) (e : Endpoint) (certRaw : Option JsStr)
    (bypassCache : Bool) : Way F × Store F :=
  if isPsaPublicApiUpstreamEnabled cfg then
    match (s.nextToken cfg).1 with
    | none => (.answered (.disabled .noToken), s)
    | some token => (s.nextToken cfg).2.seat cfg i now e certRaw token bypassCache
  else (.answered (.disabled .upstreamDisabled), s)

def exec : Handler (Store F) World (Cmd F) (Res F) := fun i s x c =>
  match c with
  | .enter e certRaw bypassCache =>
    let way := s.enter cfg i x.now e certRaw bypassCache
    some (⟨s.desk.settled.length, x.now, way.1⟩, way.2)
  | .fetch load e digits token =>
    some (x.response, { s with exchanges := s.exchanges ++ [⟨load, e, digits, token, x.response⟩] })
  | .sleep => some ((), s)
  | .store key result ttlMs =>
    some ((), { s with
      desk := s.desk.store key ⟨result, x.now + ttlMs⟩
      stores := s.stores ++ [(key, result, x.now)] })
  | .finish load key result => some ((), { s with desk := s.desk.finish load key result })
  | .join load => (s.desk.outcome load).map fun r => (r, s)

end Service

/-! ## Keys -/

def IsCert (digits : JsStr) : Prop := ∀ c ∈ digits, c.isDigit = true

theorem isCert_digitsOf (certRaw : Option JsStr) : IsCert (digitsOf certRaw) := by
  intro c hc
  exact (List.mem_filter.mp hc).2

/-- The keys of one map do not meet: a number has no letter. -/
theorem key_injective {e e' : Endpoint} {digits digits' : JsStr} (h : IsCert digits)
    (h' : IsCert digits') (hkey : e.key digits = e'.key digits') : e = e' ∧ digits = digits' := by
  have happend : ∀ {d d' : JsStr}, IsCert d → d ≠ js "file-append:" ++ d' := by
    intro d d' hd heq
    have hmem : 'f' ∈ d := by
      rw [heq]
      exact List.mem_append_left _ (by decide)
    exact absurd (hd 'f' hmem) (by decide)
  cases e <;> cases e' <;> simp only [Endpoint.key, Prod.mk.injEq, reduceCtorEq, false_and,
    true_and] at hkey
  · exact ⟨rfl, hkey⟩
  · exact absurd hkey (happend h)
  · exact absurd hkey.symm (happend h')
  · exact ⟨rfl, List.append_cancel_left hkey⟩
  · exact ⟨rfl, hkey⟩

section Invariant
variable {F : Type} (N : Numbers F) (parse : JsStr → Option (Json F)) (cfg : PsaConfig)

/-- The request was answered with a response that says so. -/
def Store.Attested (s : Store F) (e : Endpoint) (cert : JsStr) (raw : Json F) : Prop :=
  ∃ x ∈ s.exchanges, x.endpoint = e ∧ x.digits = cert ∧
    ∃ res, x.response = .ok res ∧ Genuine N parse e cert res raw

/-- A success under a key is of the number and the endpoint of the key. -/
def Store.Backed (s : Store F) (key : Key) (result : LookupResult F) : Prop :=
  ∀ cert raw, result = .success cert raw →
    ∃ e, key = e.key cert ∧ IsCert cert ∧ s.Attested N parse e cert raw

/-- A cache entry was written at a reading of the clock, and lasts from then. -/
def Store.Kept (s : Store F) (key : Key) (e : Cached (LookupResult F)) : Prop :=
  s.Backed N parse key e.value ∧
    ∃ t, (key, e.value, t) ∈ s.stores ∧ e.expiresAtMs = t + cfg.cacheTtlMs

def Store.fetches (s : Store F) (load : ℕ) : ℕ := s.exchanges.countP fun x => x.load = load

structure Sound (s : Store F) : Prop where
  desk : s.desk.Sound (s.Kept N parse cfg) (s.Backed N parse)
  loads : ∀ x ∈ s.exchanges, ∃ load, s.desk.loads[x.load]? = some load ∧
    load.key = x.endpoint.key x.digits
  tokens : ∀ x ∈ s.exchanges, x.token ∈ buildTokenPool cfg
  quota : ∀ load, s.fetches load ≤ cfg.getMaxRetries + 1

structure Later (fixed : ℕ → Prop) (s t : Store F) : Prop where
  desk : Desk.Evolves fixed s.desk t.desk
  exchanges : s.exchanges <+: t.exchanges
  stores : s.stores <+: t.stores
  fetches : ∀ (w : ℕ) (load : Load Key (LookupResult F)), s.desk.loads[w]? = some load →
    fixed load.owner → t.fetches w = s.fetches w

variable {N parse cfg} {fixed fixed' : ℕ → Prop} {s t u : Store F}

theorem Later.refl (fixed : ℕ → Prop) (s : Store F) : Later fixed s s :=
  ⟨Desk.Evolves.refl fixed _, List.prefix_refl _, List.prefix_refl _, fun _ _ _ _ => rfl⟩

theorem Later.trans (h : Later fixed s t) (h' : Later fixed t u) : Later fixed s u := by
  refine ⟨h.desk.trans h'.desk, h.exchanges.trans h'.exchanges, h.stores.trans h'.stores, ?_⟩
  intro w load hw howner
  obtain ⟨load', hw', -, howner', -⟩ := h.desk.kept w load hw
  rw [h'.fetches w load' hw' (howner' ▸ howner), h.fetches w load hw howner]

theorem Later.mono (hfixed : ∀ i, fixed' i → fixed i) (h : Later fixed s t) : Later fixed' s t :=
  ⟨h.desk.mono hfixed, h.exchanges, h.stores, fun w load hw ho => h.fetches w load hw (hfixed _ ho)⟩

variable (N parse cfg) in
/-- Task `i` settles its own lookups only, and asks for them only. -/
def contract : Contract (Store F) where
  inv := Sound N parse cfg
  guar i := Later (· ≠ i)
  rely i := Later (· = i)
  rely_refl _ s := Later.refl _ s
  rely_trans _ _ _ _ := Later.trans
  rely_of_guar _ _ _ _ hij h := h.mono fun _ hk => hk ▸ hij

theorem Store.Attested.later {e : Endpoint} {cert : JsStr} {raw : Json F}
    (h : s.Attested N parse e cert raw) (hst : s.exchanges <+: t.exchanges) :
    t.Attested N parse e cert raw := by
  obtain ⟨x, hx, hrest⟩ := h
  exact ⟨x, hst.subset hx, hrest⟩

theorem Store.Backed.later {key : Key} {result : LookupResult F} (h : s.Backed N parse key result)
    (hst : s.exchanges <+: t.exchanges) : t.Backed N parse key result := by
  intro cert raw hresult
  obtain ⟨e, hkey, hcert, hattested⟩ := h cert raw hresult
  exact ⟨e, hkey, hcert, hattested.later hst⟩

theorem Store.Kept.later {key : Key} {e : Cached (LookupResult F)} (h : s.Kept N parse cfg key e)
    (hx : s.exchanges <+: t.exchanges) (hs : s.stores <+: t.stores) : t.Kept N parse cfg key e := by
  obtain ⟨hbacked, time, hmem, hexp⟩ := h
  exact ⟨hbacked.later hx, time, hs.subset hmem, hexp⟩

/-- The desk stays sound while the records of exchanges and stores grow. -/
theorem Sound.deskLater (h : Sound N parse cfg s) (hx : s.exchanges <+: t.exchanges)
    (hs : s.stores <+: t.stores) : s.desk.Sound (t.Kept N parse cfg) (t.Backed N parse) :=
  h.desk.mono (fun _ _ he => he.later hx hs) fun _ _ hv => hv.later hx

/-! ## What a lookup is told -/

/-- A success is the record of the number that was asked for, from a lookup that had not settled
when the reader came, or from the cache while it lasted. -/
def Store.Truthful (s : Store F) (N : Numbers F) (parse : JsStr → Option (Json F)) (cfg : PsaConfig)
    (a : Answer F) : Prop :=
  ∀ cert raw, a.result = .success cert raw →
    cert = digitsOf a.certRaw ∧ s.Attested N parse a.endpoint cert raw ∧
      (s.desk.Delivered a.start (a.endpoint.key cert) a.result ∨
        a.bypassCache = false ∧ ∃ time, (a.endpoint.key cert, a.result, time) ∈ s.stores ∧
          a.now < time + cfg.cacheTtlMs)

theorem Store.Truthful.later {a : Answer F} (h : s.Truthful N parse cfg a) (hst : Later fixed s t) :
    t.Truthful N parse cfg a := by
  intro cert raw hresult
  obtain ⟨hcert, hattested, hsource⟩ := h cert raw hresult
  refine ⟨hcert, hattested.later hst.exchanges, ?_⟩
  rcases hsource with hdelivered | ⟨hbypass, time, hmem, hlive⟩
  · exact .inl (hdelivered.evolves hst.desk)
  · exact .inr ⟨hbypass, time, hst.stores.subset hmem, hlive⟩

/-- What the first part of a lookup by task `i` leaves behind. -/
def Store.Good (s : Store F) (N : Numbers F) (parse : JsStr → Option (Json F)) (cfg : PsaConfig)
    (i start : ℕ) (now : ℤ) (e : Endpoint) (certRaw : Option JsStr) (bypassCache : Bool) :
    Way F → Prop
  | .answered result => s.Truthful N parse cfg ⟨e, certRaw, bypassCache, start, now, result⟩
  | .joined w => s.desk.Awaited start w (e.key (digitsOf certRaw))
  | .started w digits token => digits = digitsOf certRaw ∧ token ∈ buildTokenPool cfg ∧
    s.desk.Awaited start w (e.key digits) ∧
    s.desk.loads[w]? = some ⟨e.key digits, i, none⟩ ∧ s.fetches w = 0

theorem Sound.fetches_new (h : Sound N parse cfg s) : s.fetches s.desk.loads.length = 0 := by
  rw [Store.fetches, List.countP_eq_zero]
  intro x hx hload
  obtain ⟨load, hw, -⟩ := h.loads x hx
  have hlt := (List.getElem?_eq_some_iff.mp hw).1
  have heq : x.load = s.desk.loads.length := of_decide_eq_true hload
  omega

/-- A change of the desk alone. -/
theorem sound_of_desk {desk : Desk Key (LookupResult F)} (h : Sound N parse cfg s)
    (hdesk : desk.Sound (s.Kept N parse cfg) (s.Backed N parse))
    (hev : Desk.Evolves fixed s.desk desk) :
    Sound N parse cfg { s with desk := desk } ∧ Later fixed s { s with desk := desk } := by
  refine ⟨⟨hdesk, fun x hx => ?_, h.tokens, h.quota⟩,
    ⟨hev, List.prefix_refl _, List.prefix_refl _, fun _ _ _ _ => rfl⟩⟩
  obtain ⟨load, hw, hkey⟩ := h.loads x hx
  obtain ⟨load', hw', hkey', -⟩ := hev.kept x.load load hw
  exact ⟨load', hw', hkey'.trans hkey⟩

theorem look_spec (fixed : ℕ → Prop) (h : Sound N parse cfg s) (i : ℕ) (now : ℤ) (e : Endpoint)
    (certRaw : Option JsStr) {token : JsStr} (htoken : token ∈ buildTokenPool cfg)
    (bypassCache : Bool) :
    Sound N parse cfg (s.look cfg i now e (digitsOf certRaw) token bypassCache).2 ∧
      Later fixed s (s.look cfg i now e (digitsOf certRaw) token bypassCache).2 ∧
      (s.look cfg i now e (digitsOf certRaw) token bypassCache).2.Good N parse cfg i
        s.desk.settled.length now e certRaw bypassCache
        (s.look cfg i now e (digitsOf certRaw) token bypassCache).1 := by
  obtain ⟨hdesk, hev, hseat⟩ := Desk.enter_spec h.desk now
    (decide (0 < ttlOf cfg bypassCache)) i (e.key (digitsOf certRaw))
  obtain ⟨hsound, hlater⟩ := sound_of_desk h hdesk (hev fixed)
  refine ⟨hsound, hlater, ?_⟩
  unfold Store.look
  dsimp only
  generalize hseat' : (s.desk.enter now (decide (0 < ttlOf cfg bypassCache)) i
    (e.key (digitsOf certRaw))).1 = seat at hseat
  cases seat with
  | hit result =>
    obtain ⟨hmay, entry, ⟨hbacked, time, hmem, hexp⟩, rfl, hlive⟩ := hseat
    intro cert raw hresult
    dsimp only at hresult
    obtain ⟨e', hkey, hcert, hattested⟩ := hbacked cert raw hresult
    obtain ⟨rfl, rfl⟩ := key_injective (isCert_digitsOf certRaw) hcert hkey
    refine ⟨rfl, hattested, .inr ⟨?_, time, hmem, hexp ▸ hlive⟩⟩
    cases bypassCache with
    | false => rfl
    | true => exact absurd (of_decide_eq_true hmay) (by simp [ttlOf])
  | joined w => exact hseat
  | started w =>
    obtain ⟨hawaited, howned⟩ := hseat
    refine ⟨rfl, htoken, hawaited, howned, ?_⟩
    have hw : w = s.desk.loads.length := by
      unfold Desk.enter at hseat'
      split at hseat'
      · cases hseat'
      · split at hseat'
        · cases hseat'
        · exact (Seat.started.inj hseat').symm
    rw [hw]
    exact h.fetches_new

theorem nextToken_spec (fixed : ℕ → Prop) (h : Sound N parse cfg s) :
    Sound N parse cfg (s.nextToken cfg).2 ∧ Later fixed s (s.nextToken cfg).2 ∧
      (s.nextToken cfg).2.desk = s.desk ∧
      ∀ token, (s.nextToken cfg).1 = some token → token ∈ buildTokenPool cfg := by
  unfold Store.nextToken
  split
  · rename_i token htoken
    refine ⟨⟨h.desk, h.loads, h.tokens, h.quota⟩, ?_, rfl, ?_⟩
    · exact ⟨Desk.Evolves.refl _ _, List.prefix_refl _, List.prefix_refl _, fun _ _ _ _ => rfl⟩
    · intro token' heq
      rw [← Option.some.inj heq]
      exact List.mem_of_getElem? htoken
  · exact ⟨h, Later.refl fixed s, rfl, fun token heq => by cases heq⟩

theorem seat_spec (fixed : ℕ → Prop) (h : Sound N parse cfg s) (i : ℕ) (now : ℤ) (e : Endpoint)
    (certRaw : Option JsStr) {token : JsStr} (htoken : token ∈ buildTokenPool cfg)
    (bypassCache : Bool) :
    Sound N parse cfg (s.seat cfg i now e certRaw token bypassCache).2 ∧
      Later fixed s (s.seat cfg i now e certRaw token bypassCache).2 ∧
      (s.seat cfg i now e certRaw token bypassCache).2.Good N parse cfg i s.desk.settled.length
        now e certRaw bypassCache (s.seat cfg i now e certRaw token bypassCache).1 := by
  unfold Store.seat
  split_ifs
  · exact ⟨h, Later.refl fixed s, fun _ _ => nofun⟩
  · exact ⟨h, Later.refl fixed s, fun _ _ => nofun⟩
  · exact look_spec fixed h i now e certRaw htoken bypassCache

theorem enter_spec (fixed : ℕ → Prop) (h : Sound N parse cfg s) (i : ℕ) (now : ℤ) (e : Endpoint)
    (certRaw : Option JsStr) (bypassCache : Bool) :
    Sound N parse cfg (s.enter cfg i now e certRaw bypassCache).2 ∧
      Later fixed s (s.enter cfg i now e certRaw bypassCache).2 ∧
      (s.enter cfg i now e certRaw bypassCache).2.Good N parse cfg i s.desk.settled.length now e
        certRaw bypassCache (s.enter cfg i now e certRaw bypassCache).1 := by
  unfold Store.enter
  split_ifs
  · obtain ⟨hsound, hlater, hdesk, hpool⟩ := nextToken_spec fixed h
    split
    · exact ⟨h, Later.refl fixed s, fun _ _ => nofun⟩
    · rename_i token htoken
      obtain ⟨hs, hl, hgood⟩ :=
        seat_spec fixed hsound i now e certRaw (hpool token htoken) bypassCache
      rw [hdesk] at hgood
      exact ⟨hs, hlater.trans hl, hgood⟩
  · exact ⟨h, Later.refl fixed s, fun _ _ => nofun⟩

/-- A request for a lookup that has not used up its attempts. -/
theorem fetch_spec (h : Sound N parse cfg s) {w i : ℕ} {e : Endpoint} {digits token : JsStr}
    (htoken : token ∈ buildTokenPool cfg)
    (howned : s.desk.loads[w]? = some ⟨e.key digits, i, none⟩)
    (hquota : s.fetches w ≤ cfg.getMaxRetries) (response : Except JsStr Response) :
    let t : Store F := { s with exchanges := s.exchanges ++ [⟨w, e, digits, token, response⟩] }
    Sound N parse cfg t ∧ Later (· ≠ i) s t ∧ t.fetches w = s.fetches w + 1 := by
  intro t
  have hprefix : s.exchanges <+: t.exchanges := List.prefix_append _ _
  have hcount : ∀ w', t.fetches w' = s.fetches w' + if w = w' then 1 else 0 := by
    intro w'
    by_cases hw : w = w'
    · simp [Store.fetches, t, List.countP_append, hw]
    · simp [Store.fetches, t, List.countP_append, hw]
  refine ⟨⟨h.deskLater hprefix (List.prefix_refl _), fun x hx => ?_, fun x hx => ?_,
    fun w' => ?_⟩, ⟨Desk.Evolves.refl _ _, hprefix, List.prefix_refl _, ?_⟩, ?_⟩
  · rcases List.mem_append.mp hx with hx | hx
    · exact h.loads x hx
    · rw [List.mem_singleton.mp hx]
      exact ⟨_, howned, rfl⟩
  · rcases List.mem_append.mp hx with hx | hx
    · exact h.tokens x hx
    · rw [List.mem_singleton.mp hx]
      exact htoken
  · rw [hcount]
    split_ifs with hw
    · subst hw
      omega
    · exact h.quota w'
  · intro w' load hw' hother
    have hne : w ≠ w' := by
      rintro rfl
      rw [howned] at hw'
      obtain rfl := Option.some.inj hw'
      exact hother rfl
    rw [hcount, if_neg hne, Nat.add_zero]
  · rw [hcount, if_pos rfl]

theorem backed_resultOf {e : Endpoint} {digits : JsStr} {r : Except JsStr Response}
    (hcert : IsCert digits) (hr : ∀ res, r = .ok res →
      ∃ x ∈ s.exchanges, x.endpoint = e ∧ x.digits = digits ∧ x.response = .ok res) :
    s.Backed N parse (e.key digits) (resultOf N parse e digits r) := by
  intro cert raw hresult
  cases r with
  | error message => cases hresult
  | ok res =>
    unfold resultOf at hresult
    dsimp only at hresult
    split at hresult
    · rename_i result hok
      subst hresult
      obtain ⟨rfl, hgenuine⟩ := genuine_of_interpret hok
      obtain ⟨x, hx, he, hd, hres⟩ := hr res rfl
      exact ⟨e, rfl, hcert, x, hx, he, hd, res, hres, hgenuine⟩
    · cases hresult

theorem store_spec (fixed : ℕ → Prop) (h : Sound N parse cfg s) {key : Key}
    {result : LookupResult F} (hbacked : s.Backed N parse key result) (now : ℤ) :
    let t : Store F := { s with
      desk := s.desk.store key ⟨result, now + cfg.cacheTtlMs⟩
      stores := s.stores ++ [(key, result, now)] }
    Sound N parse cfg t ∧ Later fixed s t := by
  intro t
  have hprefix : s.stores <+: t.stores := List.prefix_append _ _
  have hdesk := h.deskLater (t := t) (List.prefix_refl _) hprefix
  have hkept : t.Kept N parse cfg key ⟨result, now + cfg.cacheTtlMs⟩ :=
    ⟨hbacked, now, List.mem_append_right _ (List.mem_singleton.mpr rfl), rfl⟩
  have hev : Desk.Evolves fixed s.desk t.desk := Desk.evolves_of_loads fixed rfl rfl
  exact ⟨⟨hdesk.store hkept, h.loads, h.tokens, h.quota⟩,
    ⟨hev, List.prefix_refl _, hprefix, fun _ _ _ _ => rfl⟩⟩

/-! ## The programs -/

variable {α : Type} {i : ℕ}

abbrev Keeps (N : Numbers F) (parse : JsStr → Option (Json F)) (cfg : PsaConfig) (i : ℕ)
    (p : M F α) (Q : α → Store F → Prop) (s : Store F) : Prop :=
  wp (exec cfg) anyStep (contract N parse cfg) i p (fun r t => ∀ a, r = .ok a → Q a t) s

theorem keeps_pure {a : α} {Q : α → Store F → Prop} (h : Q a s) :
    Keeps N parse cfg i (pure a) Q s := by
  intro b hb
  obtain rfl := Except.ok.inj hb
  exact h

theorem keeps_bind {β : Type} {p : M F α} {f : α → M F β} {Q : α → Store F → Prop}
    {Q' : β → Store F → Prop} (hp : Keeps N parse cfg i p Q s)
    (hf : ∀ a t, Q a t → Keeps N parse cfg i (f a) Q' t) : Keeps N parse cfg i (p >>= f) Q' s := by
  refine wp_bind (wp_mono (fun r t hr => ?_) hp)
  cases r with
  | ok a => exact hf a t (hr a rfl)
  | error e => exact nomatch e

/-- One command, issued where `P` holds whatever the others have done meanwhile. -/
theorem keeps_perform {c : Cmd F} {Q : Res F c → Store F → Prop} (P : Store F → Prop)
    (hP : ∀ s t, Later (· = i) s t → P s → P t) (hs : P s)
    (h : ∀ t, P t → Sound N parse cfg t → ∀ x r u, exec cfg i t x c = some (r, u) →
      Sound N parse cfg u ∧ Later (· ≠ i) t u ∧ Q r u) :
    Keeps N parse cfg i (perform c) Q s := by
  refine wp_call P (fun s t hst _ => hP s t hst) hs fun t hPt hinv _ x r u hu => ?_
  obtain ⟨hsound, hlater, hQ⟩ := h t hPt hinv x r u hu
  refine ⟨hsound, hlater, fun a ha => ?_⟩
  obtain rfl := Except.ok.inj ha
  exact hQ

/-- What no step undoes still holds at the end. -/
theorem keeps_frame {p : M F α} {Q : α → Store F → Prop} {G : Store F → Prop}
    (hp : Keeps N parse cfg i p Q s) (hG : ∀ fixed s t, Later fixed s t → G s → G t) (hs : G s) :
    Keeps N parse cfg i p (fun a t => Q a t ∧ G t) s := by
  have hpersistent : (contract N parse cfg).Persistent G := by
    intro j s t hst h
    rcases hst with hst | hst
    · exact hG _ s t hst h
    · exact hG _ s t hst h
  exact wp_mono (fun r t hr a ha => ⟨hr.1 a ha, hr.2⟩) (wp_frame hpersistent hp hs)

/-- The lookup is the task's own, and has asked `n` times. -/
structure Store.Mine (s : Store F) (i w n : ℕ) (key : Key) : Prop where
  owned : s.desk.loads[w]? = some ⟨key, i, none⟩
  fetches : s.fetches w = n

theorem Store.Mine.later {w n : ℕ} {key : Key} (h : s.Mine i w n key) (hst : Later (· = i) s t) :
    t.Mine i w n key :=
  ⟨Desk.owned_evolves h.owned hst.desk, (hst.fetches w _ h.owned rfl).trans h.fetches⟩

/-- The response was given to a request of the endpoint for the number. -/
def Store.Answered (s : Store F) (e : Endpoint) (digits : JsStr) (r : Except JsStr Response) :
    Prop :=
  ∀ res, r = .ok res → ∃ x ∈ s.exchanges, x.endpoint = e ∧ x.digits = digits ∧ x.response = .ok res

theorem keeps_fetch {w n : ℕ} {e : Endpoint} {digits token : JsStr}
    (htoken : token ∈ buildTokenPool cfg) (hn : n ≤ cfg.getMaxRetries)
    (hs : s.Mine i w n (e.key digits)) :
    Keeps N parse cfg i (perform (.fetch w e digits token))
      (fun r t => t.Mine i w (n + 1) (e.key digits) ∧ t.Answered e digits r) s := by
  refine keeps_perform (fun t => t.Mine i w n (e.key digits)) (fun _ _ hst h => h.later hst) hs ?_
  intro t hmine hsound x r u hu
  obtain ⟨rfl, rfl⟩ := Prod.mk.inj (Option.some.inj hu)
  have hquota : t.fetches w ≤ cfg.getMaxRetries := hmine.fetches ▸ hn
  obtain ⟨hsound', hlater, hcount⟩ :=
    fetch_spec hsound htoken hmine.owned hquota x.response
  refine ⟨hsound', hlater, ⟨hmine.owned, hcount.trans (congrArg (· + 1) hmine.fetches)⟩, ?_⟩
  intro res hres
  exact ⟨_, List.mem_append_right _ (List.mem_singleton.mpr rfl), rfl, rfl, hres⟩

theorem keeps_fetchFrom {w n : ℕ} {e : Endpoint} {digits token : JsStr} (left : ℕ)
    (htoken : token ∈ buildTokenPool cfg) (hn : n + left ≤ cfg.getMaxRetries)
    (hs : s.Mine i w n (e.key digits)) :
    Keeps N parse cfg i (fetchFrom w e digits token left)
      (fun r t => (∃ m, t.Mine i w m (e.key digits)) ∧ t.Answered e digits r) s := by
  induction left generalizing n s with
  | zero =>
    refine wp_mono (fun r t hr a ha => ?_) (keeps_fetch htoken hn hs)
    obtain ⟨hmine, hanswered⟩ := hr a ha
    exact ⟨⟨_, hmine⟩, hanswered⟩
  | succ left ih =>
    refine keeps_bind (keeps_fetch htoken (by omega) hs) fun r t ht => ?_
    cases r with
    | error message => exact keeps_pure ⟨⟨_, ht.1⟩, ht.2⟩
    | ok res =>
      dsimp only
      split_ifs
      · refine keeps_bind (Q := fun _ t => t.Mine i w (n + 1) (e.key digits)) ?_ fun _ t' ht' =>
          ih (by omega) ht'
        refine keeps_perform (fun t => t.Mine i w (n + 1) (e.key digits))
          (fun _ _ hst h => h.later hst) ht.1 ?_
        intro t' hmine hsound x r u hu
        obtain ⟨rfl, rfl⟩ := Prod.mk.inj (Option.some.inj hu)
        exact ⟨hsound, Later.refl _ _, hmine⟩
      · exact keeps_pure ⟨⟨_, ht.1⟩, ht.2⟩

theorem keeps_runLookup {w n : ℕ} {e : Endpoint} {digits token : JsStr} (bypassCache : Bool)
    (hcert : IsCert digits) (htoken : token ∈ buildTokenPool cfg) (hn : n = 0)
    (hs : s.Mine i w n (e.key digits)) :
    Keeps N parse cfg i (runLookup N parse cfg w e digits token bypassCache)
      (fun r t => (∃ m, t.Mine i w m (e.key digits)) ∧ t.Backed N parse (e.key digits) r) s := by
  refine keeps_bind (keeps_fetchFrom cfg.getMaxRetries htoken (by omega) hs) fun fetched t ht => ?_
  obtain ⟨⟨m, hmine⟩, hanswered⟩ := ht
  have hbacked : t.Backed N parse (e.key digits) (resultOf N parse e digits fetched) :=
    backed_resultOf hcert hanswered
  dsimp only
  split_ifs with hstore
  · have httl : ttlOf cfg bypassCache = cfg.cacheTtlMs := by
      unfold ttlOf at hstore ⊢
      split_ifs at hstore ⊢
      · exact absurd hstore.2 (lt_irrefl 0)
      · rfl
    rw [httl]
    refine keeps_bind (Q := fun _ t => t.Mine i w m (e.key digits) ∧
      t.Backed N parse (e.key digits) (resultOf N parse e digits fetched)) ?_ fun _ t' ht' =>
        keeps_pure ⟨⟨m, ht'.1⟩, ht'.2⟩
    refine keeps_perform (fun t => t.Mine i w m (e.key digits) ∧
      t.Backed N parse (e.key digits) (resultOf N parse e digits fetched))
      (fun _ _ hst h => ⟨h.1.later hst, h.2.later hst.exchanges⟩) ⟨hmine, hbacked⟩ ?_
    intro t' ht' hsound x r u hu
    obtain ⟨rfl, rfl⟩ := Prod.mk.inj (Option.some.inj hu)
    obtain ⟨hsound', hlater⟩ := store_spec (· ≠ i) hsound ht'.2 x.now
    exact ⟨hsound', hlater, ⟨ht'.1.owned, ht'.1.fetches⟩, ht'.2⟩
  · exact keeps_pure ⟨⟨m, hmine⟩, hbacked⟩

theorem truthful_of_backed {start : ℕ} {now : ℤ} {e : Endpoint} {certRaw : Option JsStr}
    {bypassCache : Bool} {result : LookupResult F}
    (hbacked : s.Backed N parse (e.key (digitsOf certRaw)) result)
    (hdelivered : s.desk.Delivered start (e.key (digitsOf certRaw)) result) :
    s.Truthful N parse cfg ⟨e, certRaw, bypassCache, start, now, result⟩ := by
  intro cert raw hresult
  obtain ⟨e', hkey, hcert, hattested⟩ := hbacked cert raw hresult
  obtain ⟨rfl, rfl⟩ := key_injective (isCert_digitsOf certRaw) hcert hkey
  exact ⟨rfl, hattested, .inl hdelivered⟩

theorem keeps_takeWay {start : ℕ} {now : ℤ} {e : Endpoint} {certRaw : Option JsStr}
    {bypassCache : Bool} {way : Way F}
    (hs : s.Good N parse cfg i start now e certRaw bypassCache way) :
    Keeps N parse cfg i (takeWay N parse cfg e bypassCache way)
      (fun r t => t.Truthful N parse cfg ⟨e, certRaw, bypassCache, start, now, r⟩) s := by
  cases way with
  | answered result => exact keeps_pure hs
  | joined w =>
    refine keeps_perform (fun t => t.desk.Awaited start w (e.key (digitsOf certRaw)))
      (fun _ _ hst h => h.evolves hst.desk) hs ?_
    intro t hawaited hsound x r u hu
    obtain ⟨v, hv, heq⟩ := Option.map_eq_some_iff.mp hu
    obtain ⟨rfl, rfl⟩ := Prod.mk.inj heq
    obtain ⟨hbacked, hdelivered⟩ := hsound.desk.delivered hawaited hv
    exact ⟨hsound, Later.refl _ _, truthful_of_backed hbacked hdelivered⟩
  | started w digits token =>
    obtain ⟨rfl, htoken, hawaited, howned, hfetches⟩ := hs
    refine keeps_bind (keeps_frame (G := fun t => t.desk.Awaited start w (e.key (digitsOf certRaw)))
      (keeps_runLookup bypassCache (isCert_digitsOf certRaw) htoken rfl ⟨howned, hfetches⟩)
      (fun _ _ _ hst h => h.evolves hst.desk) hawaited) fun result t ht => ?_
    obtain ⟨⟨⟨m, hmine⟩, hbacked⟩, hawaited'⟩ := ht
    refine keeps_bind (Q := fun _ t => t.Truthful N parse cfg
      ⟨e, certRaw, bypassCache, start, now, result⟩) ?_ fun _ t' ht' => keeps_pure ht'
    refine keeps_perform (fun t => t.Mine i w m (e.key (digitsOf certRaw)) ∧
      t.Backed N parse (e.key (digitsOf certRaw)) result ∧
      t.desk.Awaited start w (e.key (digitsOf certRaw)))
      (fun _ _ hst h => ⟨h.1.later hst, h.2.1.later hst.exchanges, h.2.2.evolves hst.desk⟩)
      ⟨hmine, hbacked, hawaited'⟩ ?_
    intro t' ht' hsound x r u hu
    obtain ⟨hmine', hbacked', hlate⟩ := ht'
    obtain ⟨rfl, rfl⟩ := Prod.mk.inj (Option.some.inj hu)
    obtain ⟨hdesk, hev, houtcome⟩ := Desk.finish_spec hsound.desk hmine'.owned hbacked'
    obtain ⟨hsound', hlater⟩ := sound_of_desk hsound hdesk hev
    obtain ⟨-, hdelivered⟩ := hdesk.delivered (hlate.evolves hev) houtcome
    exact ⟨hsound', hlater, truthful_of_backed hbacked' hdelivered⟩

theorem keeps_lookup (e : Endpoint) (certRaw : Option JsStr) (bypassCache : Bool)
    (s : Store F) :
    Keeps N parse cfg i (lookup N parse cfg e certRaw bypassCache)
      (fun a t => t.Truthful N parse cfg a) s := by
  refine keeps_bind (Q := fun entered t => t.Good N parse cfg i entered.start entered.now e certRaw
    bypassCache entered.way) ?_ fun entered t ht => ?_
  · refine keeps_perform (fun _ => True) (fun _ _ _ _ => trivial) trivial ?_
    intro t _ hsound x r u hu
    obtain ⟨rfl, rfl⟩ := Prod.mk.inj (Option.some.inj hu)
    exact enter_spec (· ≠ i) hsound i x.now e certRaw bypassCache
  · exact keeps_bind (keeps_takeWay ht) fun result t' ht' => keeps_pure ht'

theorem keeps_task (call : Call) (s : Store F) :
    Keeps N parse cfg i (call.task N parse cfg) (fun a t => t.Truthful N parse cfg a) s := by
  cases call with
  | getByCertNumber certRaw bypassCache => exact keeps_lookup _ certRaw bypassCache s
  | getByCertNumberForFileAppend certRaw => exact keeps_lookup _ certRaw false s
  | getImagesByCertNumber certRaw => exact keeps_lookup _ certRaw false s

theorem sound_empty : Sound N parse cfg ({} : Store F) := by
  refine ⟨Desk.sound_empty, fun x hx => ?_, fun x hx => ?_, fun _ => Nat.zero_le _⟩
  · cases hx
  · cases hx

theorem safe_lookups {p : Pool (Store F) (Cmd F) (Res F) Empty (Answer F)}
    (hp : Pool.Reach (exec cfg) (Call.task N parse cfg) anyStep ⟨{}, []⟩ p) :
    Pool.Safe (exec cfg) anyStep (contract N parse cfg)
      (fun _ r t => ∀ a, r = .ok a → t.Truthful N parse cfg a) p := by
  refine Pool.safe_reach ?_ (fun call i s _ => keeps_task call s) hp (Pool.safe_nil sound_empty)
  intro i r s t hst h a ha
  exact (h a ha).later hst

/-- In every interleaving of lookups, a success is the record of the number that was asked for. It
comes from a lookup that had not settled when the reader came, or, unless the cache was bypassed,
from an entry that was made less than its lifetime before. -/
theorem lookup_truthful {p : Pool (Store F) (Cmd F) (Res F) Empty (Answer F)}
    (hp : Pool.Reach (exec cfg) (Call.task N parse cfg) anyStep ⟨{}, []⟩ p) {i : ℕ} {a : Answer F}
    (hi : p.tasks[i]? = some (.ret (.ok a))) : p.shared.Truthful N parse cfg a :=
  (safe_lookups hp).ended hi a rfl

/-- In every interleaving of lookups, no two of one number at one endpoint are in flight, none asks
PSA more than four times, and each asks with a token of the pool for the number of its key. -/
theorem lookups_bounded {p : Pool (Store F) (Cmd F) (Res F) Empty (Answer F)}
    (hp : Pool.Reach (exec cfg) (Call.task N parse cfg) anyStep ⟨{}, []⟩ p) :
    (∀ w w' key, p.shared.desk.Open w key → p.shared.desk.Open w' key → w = w') ∧
      (∀ load, p.shared.fetches load ≤ 4) ∧
      ∀ x ∈ p.shared.exchanges, x.token ∈ buildTokenPool cfg ∧
        ∃ load, p.shared.desk.loads[x.load]? = some load ∧ load.key = x.endpoint.key x.digits := by
  have hsound : Sound N parse cfg p.shared := (safe_lookups hp).inv
  refine ⟨fun w w' key => hsound.desk.single, fun load => ?_, fun x hx => ?_⟩
  · have hquota := hsound.quota load
    unfold PsaConfig.getMaxRetries at hquota
    omega
  · exact ⟨hsound.tokens x hx, hsound.loads x hx⟩

end Invariant

section Runs

def psaText : JsStr := js "\x7b\"PSACert\":\x7b\"CertNumber\":\"12345678\"\x7d\x7d"

/-- `JSON.parse` of the text above. -/
def psaParse (text : JsStr) : Option (Json ℕ) :=
  if text = psaText then
    some (.obj [(js "PSACert", .obj [(js "CertNumber", .str (js "12345678"))])])
  else none

def psaCfg : PsaConfig :=
  { token := some (js "t1"), tokens := some (js "t2, t1"), cacheTtlMs := 1000, maxRetries := 1 }

def psaTask : Call → M ℕ (Answer ℕ) := Call.task Cards.wholeNumbers psaParse psaCfg

/-- The call has settled with a success: the number, when it came, and whether it may be cached. -/
def successOf (p : Pool (Store ℕ) (Cmd ℕ) (Res ℕ) Empty (Answer ℕ)) (i : ℕ) :
    Option (JsStr × ℕ × ℤ) :=
  match p.tasks[i]? with
  | some (.ret (.ok ⟨_, _, _, start, now, .success cert _⟩)) => some (cert, start, now)
  | _ => none

theorem settled_of_successOf {p : Pool (Store ℕ) (Cmd ℕ) (Res ℕ) Empty (Answer ℕ)} {i : ℕ}
    {v : JsStr × ℕ × ℤ} (h : successOf p i = some v) :
    ∃ a, p.tasks[i]? = some (.ret (.ok a)) := by
  unfold successOf at h
  split at h
  · rename_i hi
    exact ⟨_, hi⟩
  · cases h

/-- PSA first answers 429. A second reader joins, and a third one comes while the record is
cached. -/
def threeReaders : List (Pool.Event Call World) :=
  let busy : World := ⟨0, .ok ⟨429, [], some 1⟩⟩
  let good : World := ⟨500, .ok ⟨200, psaText, none⟩⟩
  [.spawn (.getByCertNumber (some (js "PSA 12345678")) false), .run 0 busy, .run 0 busy,
    .spawn (.getByCertNumber (some (js "12345678")) true), .run 1 busy, .run 0 busy, .run 0 good,
    .run 0 good, .run 0 good, .run 1 good,
    .spawn (.getByCertNumber (some (js "12345678")) false), .run 2 ⟨1499, .error []⟩]

def threeSuccesses (p : Pool (Store ℕ) (Cmd ℕ) (Res ℕ) Empty (Answer ℕ)) :
    List (Option (JsStr × ℕ × ℤ)) := [successOf p 0, successOf p 1, successOf p 2]

theorem lookup_truthful_threeReaders : ∃ p,
    Pool.Reach (exec psaCfg) psaTask anyStep ⟨{}, []⟩ p ∧
      threeSuccesses p =
        [some (js "12345678", 0, 0), some (js "12345678", 0, 0), some (js "12345678", 1, 1499)] ∧
      (∃ a, p.tasks[1]? = some (.ret (.ok a)) ∧
        p.shared.Truthful Cards.wholeNumbers psaParse psaCfg a) := by
  obtain ⟨p, hp, hends⟩ : ∃ p, Pool.Reach (exec psaCfg) psaTask anyStep ⟨{}, []⟩ p ∧
      threeSuccesses p =
        [some (js "12345678", 0, 0), some (js "12345678", 0, 0), some (js "12345678", 1, 1499)] :=
    Pool.exists_reach_of_runSchedule threeReaders threeSuccesses (by decide +kernel)
  have hsecond : successOf p 1 = some (js "12345678", 0, 0) :=
    (List.cons.inj (List.cons.inj hends).2).1
  obtain ⟨a, ha⟩ := settled_of_successOf hsecond
  exact ⟨p, hp, hends, a, ha, lookup_truthful hp ha⟩

def tokensUsed (p : Pool (Store ℕ) (Cmd ℕ) (Res ℕ) Empty (Answer ℕ)) : List JsStr :=
  p.shared.exchanges.map Exchange.token

/-- The reader that came second asked nothing of its own. -/
theorem lookups_bounded_threeReaders : ∃ p,
    Pool.Reach (exec psaCfg) psaTask anyStep ⟨{}, []⟩ p ∧
      tokensUsed p = [js "t2", js "t2"] ∧
      (∀ w w' key, p.shared.desk.Open w key → p.shared.desk.Open w' key → w = w') ∧
      ∀ load, p.shared.fetches load ≤ 4 := by
  obtain ⟨p, hp, htokens⟩ : ∃ p, Pool.Reach (exec psaCfg) psaTask anyStep ⟨{}, []⟩ p ∧
      tokensUsed p = [js "t2", js "t2"] :=
    Pool.exists_reach_of_runSchedule threeReaders tokensUsed (by decide +kernel)
  have hbounded := lookups_bounded hp
  exact ⟨p, hp, htokens, hbounded.1, hbounded.2.1⟩

end Runs

end PsaPublicApi
