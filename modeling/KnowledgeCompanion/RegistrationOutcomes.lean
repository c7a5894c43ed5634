import KnowledgeCompanion.AuthService

/-! What each way through `Register` leaves in the user table and the session store, and
what repeating the call or logging in does afterwards. -/

namespace KnowledgeCompanion.RegistrationOutcomes

open AppErrors KeyedTable TokenStore AuthService

def plainConfig : AuthConfig := ⟨fun password => .ok password, fun a b => a == b, 900⟩

def noUsers : AuthState := ⟨.empty, ∅⟩

end KnowledgeCompanion.RegistrationOutcomes
