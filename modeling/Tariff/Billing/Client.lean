import Tariff.Billing.Answer
import Tariff.Billing.Retry
import Tariff.Backend.Basic
import Tariff.Config.Basic
/-
  Tariff.Billing.Client — the billing service as a backend.

  Requests go below the base address of the service and carry its key, if it has one. Requests
  that read are sent again when they get no response; the request that appends a version is
  sent once, because one that reached the service must not be repeated. A response counts if its
  body can be read and its status says success. A body that cannot be read is no reason to send
  a request again.
-/

namespace Tariff

/-- The way to the service: what comes of a request. Redirects are left out: a response that points
to another address is a response like any other, and nothing is sent on to that address. -/
abbrev Link (m : Type → Type) := Request → m (Except TransportFault Response)

/-- No request gets through. -/
def Link.unreachable {m : Type → Type} [Monad m] : Link m := fun r =>
  return .error (.unreachable r.url)

namespace ServiceConfig

/-- The base address without slashes at its end. -/
def base (c : ServiceConfig) : String :=
  String.ofList (c.baseUrl.toList.reverse.dropWhile (· == '/')).reverse

def currenciesAddress (c : ServiceConfig) : String := c.base ++ "/currencies"

def historyAddress (c : ServiceConfig) (priceId : String) : String :=
  c.base ++ "/prices/" ++ priceId ++ "/amounts"

/-- The characters that a header may hold. -/
def isHeaderChar (ch : Char) : Bool := ch == '\t' || (0x20 ≤ ch.toNat && ch.toNat ≠ 0x7f)

/-- The header that carries the key. -/
def authorization (c : ServiceConfig) : Except TransportFault (Option String) :=
  match c.apiKey with
  | none => .ok none
  | some key =>
    if key.toList.all isHeaderChar then .ok (some ("Bearer " ++ key)) else .error .badHeader

/-- A request to an address. -/
def request (c : ServiceConfig) (method : Method) (address : String) (body : Option String) :
    Except TransportFault Request := do
  let url ← (Url.read address).mapError .badUrl
  let authorization ← c.authorization
  if !url.isWeb then throw (.badScheme url)
  return {
    method := method
    url := url
    authorization := authorization
    contentType := body.map fun _ => "application/json"
    userAgent := "pricegate/0.1"
    body := body }

end ServiceConfig

namespace Billing

/-- How often a request that reads is sent again. -/
def retries : Nat := 3

/-- Milliseconds between two attempts. -/
def retryDelay : Nat := 500

/-- A service and the way to it. -/
structure Client (m : Type → Type) where
  service : ServiceConfig
  link : Link m
  /-- Wait for so many milliseconds. -/
  sleep : Nat → m Unit

namespace Client

variable {m : Type → Type} [Monad m]

/-- Send a request to an address. -/
def send (c : Client m) (method : Method) (address : String) (body : Option String) :
    m (Except TransportFault Response) :=
  match c.service.request method address body with
  | .ok request => c.link request
  | .error why => return .error why

/-- The body of a response that says success. The body is read before the status is looked at. -/
def successBody (address : String) (r : Response) : Except Fault String := do
  let body ← r.body.mapError (.unread address)
  if r.isSuccess then .ok body else .error (.refused r.status address body)

/-- The payload at an address. -/
def payload (c : Client m) (address : String) : Act m Json := do
  let response ← Act.ofExcept (.unsent address)
    (← (retry (c.send .get address none) (c.sleep retryDelay) retries : m _))
  let body ← Act.ofExcept id (successBody address response)
  Act.ofExcept (.badAnswer address body) (readPayload body)

/-- The service as a backend. -/
def backend (c : Client m) : Backend m where
  currencies := do
    let data ← c.payload c.service.currenciesAddress
    Act.ofExcept .badCurrencies (currenciesOf data)
  history priceId := do
    let data ← c.payload (c.service.historyAddress priceId)
    Act.ofExcept (.badVersions priceId) (historyOf data)
  append priceId new := do
    let address := c.service.historyAddress priceId
    let response ← Act.ofExcept (.unsent address)
      (← (c.send .post address (some new.body) : m _))
    let body ← Act.ofExcept id (successBody address response)
    Act.ofExcept (.badAnswer address body) (readAppended body)
  lead := .history

end Client

end Billing

end Tariff
