/-
The balance of the treasury and the tokens behind it. Deposits come in the token set at the start; payments are made
in the token set for payments, or not at all while there is none, and the balance falls either way. It is what the
contract holds where every payment is made in the token of deposits, to somebody else.
-/
import ArenaX.Treasury.Contract

namespace ArenaX.Treasury

open Machine Exec Sample
open Host (Address Holdings)

/-- A deposit stays in the range of the balance, and a payment leaves the contract in the token of deposits. -/
def Call.Backed (env : Env) (s : State) : Call → Prop
  | .deposit _ amount => (s.balance : ℤ) + amount ≤ i128.max
  | .executeProposal _ proposalId => s.tokenAddress = s.token ∧
    ∀ proposal ∈ s.spendingProposal.get proposalId, proposal.recipient ≠ env.currentContract
  | _ => True

instance (env : Env) (s : State) (c : Call) : Decidable (c.Backed env s) := by
  apply Call.casesOn (motive := fun c => Decidable (c.Backed env s)) c <;> intros <;> dsimp only [Call.Backed] <;>
    infer_instance

/-- The calls of one contract that keep its balance backed. -/
def Backed : Rule := fun e e' s c => e'.currentContract = e.currentContract ∧ c.Backed e' s

instance (e e' : Env) (s : State) (c : Call) : Decidable (Backed e e' s c) := inferInstanceAs (Decidable (_ ∧ _))

/-- The contract holds its balance in the token of deposits. -/
def State.Backed (account : Address) (s : State) : Prop :=
  ∃ token, s.token = some token ∧ s.tokens token account = s.balance

/-- What the recipient of a proposal gains of the token of deposits by a call that executes the proposal. -/
def received (m : Mode) (proposalId : U64) (env : Env) (s : State) (c : Call) : ℤ :=
  match s.token, s.spendingProposal.get proposalId, (execute env s c).run m with
  | some token, some proposal, some s' =>
    if c.executes proposalId then s'.tokens token proposal.recipient - s.tokens token proposal.recipient else 0
  | _, _, _ => 0

section Steps

variable {m : Mode} {env : Env} {s s' : State} {c : Call} {sender caller : Address} {amount : I128} {proposalId : U64}

theorem deposit_backed (hs : s.Backed env.currentContract) (hok : s.balance + amount ≤ i128.max)
    (h : (deposit env s sender amount).run m = some s') : s'.Backed env.currentContract := by
  obtain ⟨hsigned, hpos, _, htoken, -, rfl⟩ := deposit_spec h
  obtain ⟨token', htoken', hheld⟩ := hs
  cases htoken.symm.trans htoken'
  have hbalance : (i128.wrap (s.balance + amount) : ℤ) = s.balance + amount := by
    have := s.balance.lo
    exact wrap_of_fits ⟨by omega, hok⟩
  refine ⟨_, htoken, ?_⟩
  dsimp only
  rw [Holdings.move_in (ne_currentContract hsigned), hheld, hbalance]

/-- A payment in the token of deposits takes its amount from the contract and brings it to the recipient. -/
theorem executeProposal_pays (hs : s.Backed env.currentContract)
    (hpositive : s.spendingProposal.All fun _ p => 0 < (p.amount : ℤ))
    (hok : (Call.executeProposal caller proposalId).Backed env s)
    (h : (executeProposal env s caller proposalId).run m = some s') :
    s'.Backed env.currentContract ∧ ∃ token proposal, s.token = some token ∧
      s.spendingProposal.get proposalId = some proposal ∧ proposal.executed = false ∧
      s'.tokens token proposal.recipient = s.tokens token proposal.recipient + proposal.amount := by
  obtain ⟨-, proposal, _, hget, -, hactive, -, -, hle, -, -, rfl⟩ := executeProposal_spec h
  obtain ⟨token, htoken, hheld⟩ := hs
  obtain ⟨haddress, hrecipient⟩ := hok
  have hother := hrecipient proposal hget
  have hpos := hpositive proposalId proposal hget
  have hbalance : (i128.wrap (s.balance - proposal.amount) : ℤ) = s.balance - proposal.amount := by
    have hmin : i128.min ≤ 0 := by decide
    have := s.balance.hi
    exact wrap_of_fits ⟨by omega, by omega⟩
  have hpaid : s.paid env proposal.recipient proposal.amount =
      s.tokens.move token env.currentContract proposal.recipient proposal.amount :=
    State.paid_of_some (haddress.trans htoken)
  refine ⟨⟨token, htoken, ?_⟩, token, proposal, htoken, hget, hactive.1, ?_⟩
  · dsimp only
    rw [hpaid, Holdings.move_out hother, hheld, hbalance]
  · dsimp only
    rw [hpaid, Holdings.move_in (Ne.symm hother)]

theorem execute_backed (hs : s.Backed env.currentContract)
    (hpositive : s.spendingProposal.All fun _ p => 0 < (p.amount : ℤ)) (hok : c.Backed env s)
    (h : (execute env s c).run m = some s') : s'.Backed env.currentContract := by
  cases c with
  | deposit => exact deposit_backed hs hok h
  | executeProposal => exact (executeProposal_pays hs hpositive hok h).1
  | _ =>
    have hframe := execute_frame h
    unfold State.Backed
    rw [hframe.token, hframe.tokens (by rintro ⟨⟩) (by rintro ⟨⟩), hframe.balance (by rintro ⟨⟩) (by rintro ⟨⟩)]
    exact hs

/-- The recipient of a proposal receives its amount by the call that executes it, and nothing by another. -/
theorem received_eq (hs : s.Backed env.currentContract)
    (hpositive : s.spendingProposal.All fun _ p => 0 < (p.amount : ℤ)) (hok : c.Backed env s)
    (h : (execute env s c).run m = some s') {proposal : SpendingProposal}
    (hget : s.spendingProposal.get proposalId = some proposal) :
    received m proposalId env s c = if c.executes proposalId then (proposal.amount : ℤ) else 0 := by
  have ⟨token, htoken, _⟩ := hs
  unfold received
  rw [htoken, hget, h]
  dsimp only
  split
  · rename_i hexecutes
    cases c with
    | executeProposal _ id =>
      cases of_decide_eq_true hexecutes
      obtain ⟨-, _, _, htoken', hget', -, hpaid⟩ := executeProposal_pays hs hpositive hok h
      cases htoken.symm.trans htoken'
      cases hget.symm.trans hget'
      rw [hpaid, add_sub_cancel_left]
    | _ => cases hexecutes
  · rfl

end Steps

/-! ## Runs -/

section Runs

variable {m : Mode} {e : Env} {s : State} {proposalId : U64}

theorem Backed.state (h : (contract m).Reach Backed e s) : s.Backed e.currentContract := by
  induction h with
  | init hinit =>
    obtain ⟨tokens, _, token, _, _, _, _, hzero, rfl⟩ := contract_init hinit
    exact ⟨token, rfl, hzero token⟩
  | step hreach hok hstep ih =>
    rw [← hok.1] at ih
    exact execute_backed ih (reach_positive hreach) hok.2 hstep

/-- Since a proposal was created its recipient has received its amount if it was executed, and nothing otherwise. -/
theorem Backed.received_since {n : ℤ}
    (h : (contract m).TallySince Backed (Creates proposalId) (received m proposalId) n e s)
    {proposal : SpendingProposal} (hget : s.spendingProposal.get proposalId = some proposal) :
    n = if proposal.executed then (proposal.amount : ℤ) else 0 := by
  refine h.invariant (P := fun n _ s => ∀ p, s.spendingProposal.get proposalId = some p →
    n = if p.executed then p.amount else 0) ?_ ?_ proposal hget
  · intro e₀ e s₀ c s _ _ hc hstep p hp
    rw [(execute_creates hc hstep hp).2.1]
    rfl
  · intro n e e' s c s' hreach ih hok hc hstep p hp
    obtain ⟨p₀, hp₀, hbecomes⟩ := execute_becomes hc hstep hp
    have hs := Backed.state hreach
    have hpositive := reach_positive hreach
    rw [← hok.1] at hs
    rw [received_eq hs hpositive hok.2 hstep hp₀, ih p₀ hp₀, hbecomes.executed, hbecomes.amount]
    cases hexecutes : c.executes proposalId with
    | false => simp
    | true =>
      -- a proposal is executed once: the one that is executed was not executed before
      cases c with
      | executeProposal _ id =>
        cases of_decide_eq_true hexecutes
        obtain ⟨-, _, _, -, hget', hnew, -⟩ := executeProposal_pays hs hpositive hok.2 hstep
        cases hp₀.symm.trans hget'
        simp [hnew]
      | _ => cases hexecutes

/-- Where every payment is made in the token of deposits and to somebody else, the contract holds exactly its balance
in that token, and every proposal that was executed has brought its amount of it to its recipient. -/
theorem balance_is_held (h : (contract m).Reach Backed e s) :
    (∃ token, s.token = some token ∧ s.tokens token e.currentContract = s.balance) ∧
    s.spendingProposal.All fun proposalId proposal =>
      ∀ n, (contract m).TallySince Backed (Creates proposalId) (received m proposalId) n e s ↔
        n = if proposal.executed then (proposal.amount : ℤ) else 0 := by
  refine ⟨Backed.state h, ?_⟩
  intro proposalId proposal hget
  exact TransitionSystem.iff_eq_of_exists (tallySince_creation _ h hget) fun hn => Backed.received_since hn hget

/-- A payment of 300 out of 1000 leaves 700, in the books and at the token. -/
theorem balance_after_payment : ∃ r proposal, (deployment .wrapping (some token)).after Backed
      (proposed ++ [signed 110 (.executeProposal alice 1)]) = some r ∧
    r.2.tokens token ⟨0⟩ = r.2.balance ∧ (r.2.balance : ℤ) = 700 ∧
    r.2.spendingProposal.get 1 = some proposal ∧
    (contract .wrapping).TallySince Backed (Creates 1) (received .wrapping 1) 300 r.1 r.2 := by
  refine ⟨_, _, evaluated, by decide +kernel, by decide +kernel,
    evaluated, ?_⟩
  exact ((balance_is_held (reach_after (evaluated _))).2 1 _
    evaluated 300).2 (by decide +kernel)

/-- Without a token for payments the same payment is booked and not made: the contract still holds 1000. -/
theorem payment_without_token : ∃ e s proposal, (contract .exact).Reach Unrestricted e s ∧
    e.currentContract = ⟨0⟩ ∧ s.token = some token ∧ s.tokens token ⟨0⟩ = 1000 ∧ (s.balance : ℤ) = 700 ∧
    s.spendingProposal.get 1 = some proposal ∧ proposal.executed = true ∧
    proposal.recipient = vendor ∧ s.tokens token vendor = Holdings.endowed token vendor := by
  have hreach := reach_after (evaluated
    (o := (deployment .exact none).after Unrestricted (proposed ++ [signed 110 (.executeProposal alice 1)])))
  exact ⟨_, _, _, hreach, by decide +kernel, by decide +kernel, by decide +kernel, by decide +kernel,
    evaluated, by decide +kernel⟩

end Runs

end ArenaX.Treasury
