/-
The rate-limiting contract: the error of a rejected request.
-/
import LuluExt.Lib.Go

namespace LuluExt.RateLimit

def errLimited : GoError := ⟨"ratelimit: rate limit exceeded"⟩

end LuluExt.RateLimit
