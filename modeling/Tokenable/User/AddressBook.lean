import Tokenable.Async.Pool
import Tokenable.Db.Versions
import Tokenable.Platform.Config

/-!
# The address book of a user

`createShippingAddress`, `updateShippingAddress` and `setDefaultShippingAddress` each run in one
transaction. `deleteShippingAddress` does not: it removes the address, reads the oldest one left and
saves it as the default. `save` selects the row by its id and then updates the columns in which the
copy differs, or inserts the copy when the row is gone.

The rows are those of one user. `promoting` has no effect: it records which deletions have taken the
default away and have not yet seen a default or an empty book.
-/

namespace AddressBook
open Js Platform Async Db

section Rows

inductive Column where
  | label | name | line1 | line2 | city | region | postal | country | phone
  deriving DecidableEq

def Column.all : List Column :=
  [.label, .name, .line1, .line2, .city, .region, .postal, .country, .phone]

/-- `fields` has `none` for `null`. -/
structure Address where
  id : JsStr
  fields : Column → Option JsStr
  isDefault : Bool
  createdAt : ℕ

structure CreateShippingAddressDto where
  label : Option JsStr
  name : JsStr
  line1 : JsStr
  line2 : Option JsStr
  city : JsStr
  region : Option JsStr
  postal : JsStr
  country : JsStr
  phone : JsStr
  isDefault : Option Bool

structure UpdateShippingAddressDto where
  label : Option JsStr
  name : Option JsStr
  line1 : Option JsStr
  line2 : Option JsStr
  city : Option JsStr
  region : Option JsStr
  postal : Option JsStr
  country : Option JsStr
  phone : Option JsStr
  isDefault : Option Bool

def maxShippingAddressesPerUser : ℕ := 10

/-- `(label?.trim() || 'Home').slice(0, 64)` -/
def labelOf (label : Option JsStr) : JsStr :=
  let s := (label.map trim).getD []
  (if s.isEmpty then js "Home" else s).take 64

/-- `s?.trim() ? s.trim() : null` -/
def orNull (s : Option JsStr) : Option JsStr :=
  if truthy (s.map trim) then s.map trim else none

def CreateShippingAddressDto.fields (dto : CreateShippingAddressDto) : Column → Option JsStr
  | .label => some (labelOf dto.label)
  | .name => some (trim dto.name)
  | .line1 => some (trim dto.line1)
  | .line2 => orNull dto.line2
  | .city => some (trim dto.city)
  | .region => orNull dto.region
  | .postal => some (trim dto.postal)
  | .country => some dto.country
  | .phone => some (trim dto.phone)

def UpdateShippingAddressDto.set (dto : UpdateShippingAddressDto) : Column → Option (Option JsStr)
  | .label => dto.label.map fun s => some (labelOf (some s))
  | .name => dto.name.map fun s => some (trim s)
  | .line1 => dto.line1.map fun s => some (trim s)
  | .line2 => dto.line2.map fun s => orNull (some s)
  | .city => dto.city.map fun s => some (trim s)
  | .region => dto.region.map fun s => orNull (some s)
  | .postal => dto.postal.map fun s => some (trim s)
  | .country => dto.country.map some
  | .phone => dto.phone.map fun s => some (trim s)

/-- The `SET` of an update of one row. -/
structure Patch where
  fields : Column → Option (Option JsStr)
  isDefault : Option Bool

def Patch.isEmpty (p : Patch) : Bool :=
  Column.all.all (fun c => (p.fields c).isNone) && p.isDefault.isNone

def Patch.apply (p : Patch) (r : Address) : Address :=
  { r with
    fields := fun c => (p.fields c).getD (r.fields c)
    isDefault := p.isDefault.getD r.isDefault }

/-- The columns in which a copy differs from the row that `save` has selected. -/
def diff (copy row : Address) : Patch where
  fields c := if copy.fields c = row.fields c then none else some (copy.fields c)
  isDefault := if copy.isDefault = row.isDefault then none else some copy.isDefault

/-- What an insert gives; `id` is there when a copy is saved whose row is gone. -/
structure NewAddress where
  id : Option JsStr
  fields : Column → Option JsStr
  isDefault : Bool

/-- `order: { createdAt: 'ASC' }`, the first row. -/
def oldest : List Address → Option Address
  | [] => none
  | r :: rows =>
    match oldest rows with
    | some s => if s.createdAt < r.createdAt then some s else some r
    | none => some r

theorem oldest_eq_none_iff {rows : List Address} : oldest rows = none ↔ rows = [] := by
  cases rows with
  | nil => simp [oldest]
  | cons r rows =>
    simp only [oldest, reduceCtorEq, iff_false]
    cases oldest rows with
    | none => simp
    | some s =>
      by_cases hlt : s.createdAt < r.createdAt
      · simp [hlt]
      · simp [hlt]

end Rows

section Statements

structure Book where
  rows : Versions Address
  promoting : List ℕ

/-- What a call throws: an HTTP error, or the refusal of a row by the database. -/
inductive Fault where
  | http (e : HttpError)
  | primaryKey
  | oneDefault
  deriving DecidableEq

/-- The statements. `reload` is the `SELECT` of `save`, `clearDefault` is
`UPDATE … SET is_default = false WHERE user_id = … AND is_default = true`. -/
inductive Cmd where
  | count
  | findOne (id : JsStr)
  | findOldest
  | reload (id : JsStr)
  | clearDefault
  | setDefault (id : JsStr)
  | insert (a : NewAddress)
  | update (id : JsStr) (p : Patch)
  | remove (row : Address)
  | commit
  | rollback

abbrev Res : Cmd → Type
  | .count => ℕ
  | .findOne _ | .findOldest | .reload _ => Option Address
  | .clearDefault => Unit
  | .insert _ => Except Fault Address
  | .setDefault _ | .update .. => Except Fault Unit
  | .remove _ | .commit | .rollback => Unit

/-- What the database chooses. An update that has waited for a row sees no rows that have come to
match in the meantime: `missed` says so of `clearDefault`. -/
structure Choice where
  newId : JsStr
  createdAt : ℕ
  missed : Bool

namespace Book

def pendingOf (i : ℕ) (b : Book) : List Address := b.rows.pendingOf i

def view (i : ℕ) (b : Book) : List Address := b.rows.view Address.id i

def stored (b : Book) : List Address := b.rows.stored

/-- The version of a row that a statement writes, if the lock and the index allow it. -/
def put (i : ℕ) (r : Address) (b : Book) : Option (Except Fault Unit × Book) :=
  (b.rows.put Address.id Address.isDefault i r).map fun (done, rows) =>
    (if done then .ok () else .error .oneDefault, { b with rows := rows })

def modify (i : ℕ) (id : JsStr) (p : Patch) (b : Book) : Option (Except Fault Unit × Book) :=
  match Versions.find Address.id id (b.view i) with
  | none => some (.ok (), b)
  | some r => b.put i (p.apply r)

def add (i : ℕ) (r : Address) (b : Book) : Option (Except Fault Address × Book) :=
  if b.rows.locked Address.id i r.id then none
  else if r.id ∈ (b.view i).map Address.id then some (.error .primaryKey, b)
  else (b.put i r).map fun (res, u) => (res.map fun _ => r, u)

def clear (i : ℕ) (b : Book) : Book :=
  { b with
    rows := ((b.view i).filter Address.isDefault).foldl
      (fun rows r => rows.write Address.id i { r with isDefault := false }) b.rows }

def remove (i : ℕ) (id : JsStr) (b : Book) : Book where
  rows := b.rows.delete Address.id id
  promoting :=
    if Versions.flagged Address.id Address.isDefault id b.stored then i :: b.promoting
    else b.promoting

/-- A deletion sees the address book with a default, or empty. -/
def discharge (i : ℕ) (b : Book) : Book :=
  if b.stored.isEmpty || b.stored.any Address.isDefault then
    { b with promoting := b.promoting.filter (· ≠ i) }
  else b

def exec (i : ℕ) (b : Book) (x : Choice) : (c : Cmd) → Option (Res c × Book)
  | .count => some ((b.view i).length, b)
  | .findOne id | .reload id => some (Versions.find Address.id id (b.view i), b)
  | .findOldest => some (oldest (b.view i), b)
  | .clearDefault =>
    if x.missed then some ((), b)
    else if ((b.view i).filter Address.isDefault).any fun r => b.rows.locked Address.id i r.id then none
    else some ((), b.clear i)
  | .setDefault id => b.modify i id ⟨fun _ => none, some true⟩
  | .insert a => b.add i ⟨a.id.getD x.newId, a.fields, a.isDefault, x.createdAt⟩
  | .update id p => b.modify i id p
  | .remove row =>
    if b.rows.locked Address.id i row.id then none else some ((), b.remove i row.id)
  | .commit => some ((), { b with rows := b.rows.commit Address.id i })
  | .rollback => some ((), { b with rows := b.rows.rollback i })

def handler : Handler Book Choice Cmd Res := fun i b x c =>
  (b.exec i x c).map fun (r, u) => (r, u.discharge i)

end Book

end Statements

section Calls

abbrev M := Prog Cmd Res Fault

def perform (c : Cmd) : M (Res c) := .call c fun r => .ret (.ok r)

def attempt {α : Type} (p : M (Except Fault α)) : M α := p.settle fun
  | .ok r => .ret r
  | .error e => .ret (.error e)

/-- `manager.transaction` -/
def transaction {α : Type} (body : M α) : M α := body.settle fun
  | .ok a => (perform .commit).settle fun _ => .ret (.ok a)
  | .error e => (perform .rollback).settle fun _ => .ret (.error e)

def saveOver (copy : Address) : Option Address → M Address
  | none => attempt (perform (.insert ⟨some copy.id, copy.fields, copy.isDefault⟩))
  | some row =>
    if (diff copy row).isEmpty then pure copy
    else attempt (perform (.update copy.id (diff copy row))) >>= fun _ => pure copy

/-- `repo.save` of a copy with an id. -/
def save (copy : Address) : M Address := do
  let row ← perform (.reload copy.id)
  saveOver copy row

def notFound : Fault := .http (.notFound (js "Address not found"))

def tooMany : Fault := .http (.badRequest (js "You can save up to " ++
  ofNat maxShippingAddressesPerUser ++ js " addresses"))

def clearIf (makeDefault : Bool) : M Unit := if makeDefault then perform .clearDefault else pure ()

def createShippingAddress (dto : CreateShippingAddressDto) : M Address := transaction do
  let count ← perform .count
  Prog.throwIf (maxShippingAddressesPerUser ≤ count) tooMany
  let makeDefault : Bool := dto.isDefault = some true || count = 0
  clearIf makeDefault
  attempt (perform (.insert ⟨none, dto.fields, makeDefault⟩))

def updated (row : Address) (dto : UpdateShippingAddressDto) : Address :=
  { row with
    fields := fun c => (dto.set c).getD (row.fields c)
    isDefault := dto.isDefault = some true || row.isDefault }

def updateShippingAddress (addressId : JsStr) (dto : UpdateShippingAddressDto) : M Address :=
  transaction do
    let found ← perform (.findOne addressId)
    let row ← Prog.orThrow notFound found
    clearIf (dto.isDefault = some true)
    save (updated row dto)

def moveDefault (addressId : JsStr) : M Address := do
  perform .clearDefault
  attempt (perform (.setDefault addressId))
  let updated ← perform (.findOne addressId)
  Prog.orThrow notFound updated

def setDefaultShippingAddress (addressId : JsStr) : M Address := transaction do
  let found ← perform (.findOne addressId)
  let row ← Prog.orThrow notFound found
  if row.isDefault then pure row else moveDefault addressId

/-- `save` outside a transaction runs in one of its own. -/
def promote : Option Address → M Unit
  | none => pure ()
  | some next => Prog.discard (transaction (save { next with isDefault := true }))

def promoteNext (wasDefault : Bool) : M Unit :=
  if wasDefault then perform .findOldest >>= promote else pure ()

def deleteShippingAddress (addressId : JsStr) : M Unit := do
  let found ← perform (.findOne addressId)
  let row ← Prog.orThrow notFound found
  perform (.remove row)
  promoteNext row.isDefault

inductive Request where
  | create (dto : CreateShippingAddressDto)
  | update (addressId : JsStr) (dto : UpdateShippingAddressDto)
  | setDefault (addressId : JsStr)
  | delete (addressId : JsStr)

def entry : Request → M Unit
  | .create dto => Prog.discard (createShippingAddress dto)
  | .update addressId dto => Prog.discard (updateShippingAddress addressId dto)
  | .setDefault addressId => Prog.discard (setDefaultShippingAddress addressId)
  | .delete addressId => deleteShippingAddress addressId

end Calls

end AddressBook
