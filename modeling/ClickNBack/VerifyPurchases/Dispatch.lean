import ClickNBack.VerifyPurchases.Job

namespace ClickNBack.VerifyPurchases

open Relational EventLoop FeatureFlags Purchases

section

variable (verify : Purchase → Nat → VerificationResult) (clock : Nat → Nat) (maxAttempts : Int)
  (purchaseId : String)

end

section

variable (specs : Listing Scope) (verify : Nat → Purchase → Nat → VerificationResult)
  (clock : Nat → Nat → Nat) (maxAttempts : Int)

end

end ClickNBack.VerifyPurchases
