/-
Token contracts seen from a contract that uses them: what each address holds of each token, and transfers that
move exactly their amount or fail. Which transfers are accepted is up to the tokens.
-/
import ArenaX.Lib.Host

namespace Host

open Machine Exec

/-- What each address holds of each token. -/
abbrev Holdings := Address → Address → ℤ

/-- Whether a token accepts a transfer of an amount from one address to another, given what everyone holds. -/
abbrev TokenPolicy := Holdings → Address → Address → Address → ℤ → Bool

namespace Holdings

variable {ε : Type} {h h' : Holdings} {token t sender recipient a : Address} {amount : ℤ}

/-- Move an amount of a token. -/
def move (h : Holdings) (token sender recipient : Address) (amount : ℤ) : Holdings := fun t a =>
  if t = token then h t a - (if a = sender then amount else 0) + (if a = recipient then amount else 0) else h t a

/-- Move an amount of a token, if the token accepts it. -/
def transfer (accepts : TokenPolicy) (h : Holdings) (token sender recipient : Address) (amount : ℤ) :
    Exec ε Holdings := do
  require (accepts h token sender recipient amount = true)
  pure (h.move token sender recipient amount)

@[simp] theorem run_transfer (m : Mode) (accepts : TokenPolicy) :
    (transfer accepts h token sender recipient amount : Exec ε Holdings).run m = some h' ↔
      accepts h token sender recipient amount = true ∧ h.move token sender recipient amount = h' := by
  simp [transfer, Option.bind_eq_some_iff]

/-- A transfer, and what is made of the holdings after it. -/
theorem run_transfer_then (m : Mode) (accepts : TokenPolicy) {S : Type} {f : Holdings → S} {s : S} :
    (transfer accepts h token sender recipient amount >>= fun h' => (pure (f h') : Exec ε S)).run m = some s ↔
      accepts h token sender recipient amount = true ∧ f (h.move token sender recipient amount) = s := by
  simp only [run_iff, run_transfer]
  constructor
  · rintro ⟨_, ⟨haccepts, rfl⟩, rfl⟩
    exact ⟨haccepts, rfl⟩
  · rintro ⟨haccepts, rfl⟩
    exact ⟨_, ⟨haccepts, rfl⟩, rfl⟩

/-- Tokens that accept what the sender can pay. -/
def payable : TokenPolicy := fun h token sender _ amount => decide (0 ≤ amount ∧ amount ≤ h token sender)

/-- A million of every token for everyone but contract 0. -/
def endowed : Holdings := fun _ a => if a = ⟨0⟩ then 0 else 1000000

theorem move_in (hne : sender ≠ a) : h.move token sender a amount token a = h token a + amount := by
  simp [move, hne.symm]

theorem move_out (hne : recipient ≠ a) : h.move token a recipient amount token a = h token a - amount := by
  simp [move, hne.symm]

theorem move_self : h.move token a a amount token a = h token a := by
  simp [move]

@[simp] theorem move_zero : h.move token sender recipient 0 = h := by
  funext t a
  simp [move]

theorem move_of_ne (hne : t ≠ token) : h.move token sender recipient amount t a = h t a := by
  simp [move, hne]

end Holdings

end Host
