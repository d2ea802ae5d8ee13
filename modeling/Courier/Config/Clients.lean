import Courier.Config.Basic
import Courier.Http.Clients

/-!
# Clients of a configuration

The live clients that a configuration asks for; none when the services in memory are to be used.
-/

set_option autoImplicit false

namespace Courier.Config

/-- A live client, unless the services in memory are used. -/
def live (c : Config) (client : Http.Client) : Option Http.Client :=
  if c.useMockServices then none else some client

def userClient? (c : Config) : Option Http.Client := c.live (.users c.userServiceUrl c.retryPolicy)

def templateClient? (c : Config) : Option Http.Client :=
  c.live (.templates c.templateServiceUrl c.retryPolicy)

end Courier.Config
