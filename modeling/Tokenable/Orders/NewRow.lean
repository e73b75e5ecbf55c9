import Tokenable.Orders.Service

/-!
# The row of a new order

Whatever the database and the nodes answer, the row that `materializeOrderFromDto` makes is the one
of the request.
-/

namespace Orders
open Js Platform Async Db Vault Settlement Backend

variable {Ans : (c : BackendCmd) → BackendRes c → Prop} {dto : CreateOrderDto} {chainId : ℕ}
  {row : Order}

theorem yields_rpc {q : Rpc} {a : q.Res} :
    (rpc q).Yields Ans (.ok a) ↔ Ans (.inr q) a := by
  constructor
  · rintro ⟨b, hb, heq⟩
    obtain rfl : b = a := Except.ok.inj heq
    exact hb
  · exact fun h => ⟨a, h, rfl⟩

/-- What a request and its row have in common. -/
structure RequestedRow (dto : CreateOrderDto) (row : Order) : Prop where
  side : row.side = dto.side
  status : row.status = .active
  parameters : seaportHashableParameters row.parameters = seaportHashableParameters dto.parameters
  tokenContract : row.tokenContract = dto.tokenContract
  tokenId : row.tokenId = normalizeDecimalTokenId dto.tokenId
  considerationAmount : row.considerationAmount = dto.considerationAmount

theorem parameters_of_stampPolicy {params : OrderParameters}
    (h : (stampPolicy dto).Yields Ans (.ok params)) :
    seaportHashableParameters params = seaportHashableParameters dto.parameters := by
  unfold stampPolicy at h
  cases hside : dto.side with
  | bid =>
    rw [hside] at h
    obtain rfl := Prog.yields_pure.mp h
    rfl
  | ask =>
    rw [hside] at h
    obtain ⟨policy, -, hparams⟩ := Prog.yields_bind.mp h
    obtain rfl := Prog.yields_pure.mp hparams
    rfl

/-- The row is that of the request, and its parameters have a hash. -/
theorem row_of_materialize (h : (materializeOrderFromDto dto chainId).Yields Ans (.ok row)) :
    RequestedRow dto row ∧ ∃ hash,
      Ans (.inr (.getOrderHash chainId (seaportHashableParameters row.parameters))) (.ok hash) := by
  unfold materializeOrderFromDto at h
  obtain ⟨key, -, h⟩ := Prog.yields_bind.mp h
  obtain ⟨params, hparams, h⟩ := Prog.yields_bind.mp h
  obtain ⟨answer, hanswer, h⟩ := Prog.yields_bind.mp h
  obtain ⟨orderHash, hhash, h⟩ := Prog.yields_bind.mp h
  obtain ⟨id, -, h⟩ := Prog.yields_bind.mp h
  obtain rfl := Prog.yields_pure.mp h
  have hok : answer.mapError HttpError.internal = .ok orderHash := hhash
  have hanswered : answer = .ok orderHash := by
    cases answer with
    | error message => cases hok
    | ok hash => rw [Except.ok.inj hok]
  subst hanswered
  exact ⟨⟨rfl, rfl, parameters_of_stampPolicy hparams, rfl, rfl, rfl⟩, orderHash,
    yields_rpc.mp hanswer⟩

theorem eq_of_persistOrderWith {em : (q : Stmt) → BackendM q.Res} {order : Order}
    (h : (persistOrderWith em order).Yields Ans (.ok row)) : row = order := by
  unfold persistOrderWith at h
  obtain ⟨saved, -, h⟩ := Prog.yields_bind.mp h
  rcases saved with e | u
  · cases h
  · exact (Prog.yields_pure.mp h).symm

end Orders
