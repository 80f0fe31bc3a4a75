/-
The host of a smart contract: addresses, and the environment of a call with the ledger it is made in and the
addresses that have signed it. A contract cannot sign for itself.
-/
import ArenaX.Lib.Exec

namespace Host

open Machine Exec

/-- An account or a contract on the ledger. -/
structure Address where
  id : ℕ
deriving DecidableEq

/-- The environment of a call. -/
structure Env where
  currentContract : Address
  sequence : U32
  timestamp : U64
  signers : List Address
  notSigned : currentContract ∉ signers

variable {ε : Type}

/-- Abort unless an address has signed the call. -/
def Env.requireAuth (env : Env) (address : Address) : Exec ε Unit := require (address ∈ env.signers)

@[simp] theorem Env.run_requireAuth (m : Mode) (env : Env) (address : Address) (u : Unit) :
    (env.requireAuth address : Exec ε Unit).run m = some u ↔ address ∈ env.signers := run_require m _ u

theorem Env.ne_currentContract {env : Env} {address : Address} (h : address ∈ env.signers) :
    address ≠ env.currentContract := fun e => env.notSigned (e ▸ h)

/-- The admin is set and has signed. -/
def Env.AdminSigned (env : Env) (admin : Option Address) : Prop := ∃ a, admin = some a ∧ a ∈ env.signers

/-- A check that looks the admin up and asks for their signature. -/
theorem Env.run_requireAdmin {m : Mode} {env : Env} {admin : Option Address} {x : Exec ε Address} (h : x.run m = admin)
    (u : Unit) : (x >>= fun admin => env.requireAuth admin).run m = some u ↔ env.AdminSigned admin := by
  rw [run_bind, h, Option.bind_eq_some_iff]
  simp only [Env.run_requireAuth, AdminSigned]

/-- The same call, signed by one of its signers only. -/
def Env.signedAlone (env : Env) {address : Address} (h : address ∈ env.signers) : Env := { env with
  signers := [address]
  notSigned := fun h' => env.ne_currentContract h (List.mem_singleton.1 h').symm }

/-! ## Accounts for computed runs -/

namespace Accounts

def admin : Address := ⟨1⟩
def alice : Address := ⟨2⟩
def bob : Address := ⟨3⟩
def carol : Address := ⟨4⟩

end Accounts

/-- A call of contract 0 in a ledger at a time, signed by some accounts. -/
def Env.signed (signers : List Address) (sequence time : ℤ) : Env where
  currentContract := ⟨0⟩
  sequence := u32.wrap sequence
  timestamp := u64.wrap time
  signers := signers.filter (· ≠ ⟨0⟩)
  notSigned := by simp

end Host

namespace Machine.Exec

export Host.Env (run_requireAuth ne_currentContract)

end Machine.Exec
