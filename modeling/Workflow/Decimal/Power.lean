/-!
# Powers

Powers are those of the core library, also where another library is at hand that knows
them in every monoid. So a definition means the same wherever it is read.
-/

namespace Workflow

/-- Powers with natural exponents. -/
@[default_instance high]
instance (priority := high) powOfNat {α : Type} [NatPow α] : Pow α Nat := instPowNat

end Workflow
