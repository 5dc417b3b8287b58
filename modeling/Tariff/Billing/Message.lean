import Tariff.Url.Basic
/-
  Tariff.Billing.Message — requests to the billing service and its responses.
-/

namespace Tariff

inductive Method where
  | get
  | post
  deriving DecidableEq, Repr

def Method.name : Method → String
  | .get => "GET"
  | .post => "POST"

structure Request where
  method : Method
  url : Url
  authorization : Option String
  contentType : Option String
  userAgent : String
  body : Option String
  deriving DecidableEq, Repr

structure Response where
  status : Nat
  /-- The text of the body, or why it cannot be read, outermost reason first. -/
  body : Except (List String) String
  deriving Repr

/-- Why a request got no response. -/
inductive TransportFault where
  | badUrl (why : UrlError)
  | badScheme (url : Url)
  /-- A header may not hold this text. -/
  | badHeader
  | unreachable (url : Url)
  deriving DecidableEq, Repr

/-- The fault and what lies behind it, outermost first. -/
def TransportFault.causes : TransportFault → List String
  | .badUrl why => ["builder error", why.message]
  | .badScheme url => [s!"builder error for url ({url.text})", "URL scheme is not allowed"]
  | .badHeader => ["builder error", "failed to parse header value"]
  | .unreachable url =>
    [s!"error sending request for url ({url.text})", "client error (Connect)",
      "tcp connect error", "Network is unreachable (os error 101)"]

namespace Response

/-- The request was carried out. -/
def isSuccess (r : Response) : Bool := 200 ≤ r.status && r.status < 300

end Response

/-- The standard phrases of status codes. -/
def statusPhrases : List (Nat × String) :=
  [(100, "Continue"), (101, "Switching Protocols"), (102, "Processing"), (103, "Early Hints"),
   (200, "OK"), (201, "Created"), (202, "Accepted"), (203, "Non Authoritative Information"),
   (204, "No Content"), (205, "Reset Content"), (206, "Partial Content"), (207, "Multi-Status"),
   (208, "Already Reported"), (226, "IM Used"), (300, "Multiple Choices"),
   (301, "Moved Permanently"), (302, "Found"), (303, "See Other"), (304, "Not Modified"),
   (305, "Use Proxy"), (307, "Temporary Redirect"), (308, "Permanent Redirect"),
   (400, "Bad Request"), (401, "Unauthorized"), (402, "Payment Required"), (403, "Forbidden"),
   (404, "Not Found"), (405, "Method Not Allowed"), (406, "Not Acceptable"),
   (407, "Proxy Authentication Required"), (408, "Request Timeout"), (409, "Conflict"),
   (410, "Gone"), (411, "Length Required"), (412, "Precondition Failed"),
   (413, "Payload Too Large"), (414, "URI Too Long"), (415, "Unsupported Media Type"),
   (416, "Range Not Satisfiable"), (417, "Expectation Failed"), (418, "I'm a teapot"),
   (421, "Misdirected Request"), (422, "Unprocessable Entity"), (423, "Locked"),
   (424, "Failed Dependency"), (425, "Too Early"), (426, "Upgrade Required"),
   (428, "Precondition Required"), (429, "Too Many Requests"),
   (431, "Request Header Fields Too Large"), (451, "Unavailable For Legal Reasons"),
   (500, "Internal Server Error"), (501, "Not Implemented"), (502, "Bad Gateway"),
   (503, "Service Unavailable"), (504, "Gateway Timeout"), (505, "HTTP Version Not Supported"),
   (506, "Variant Also Negotiates"), (507, "Insufficient Storage"), (508, "Loop Detected"),
   (510, "Not Extended"), (511, "Network Authentication Required")]

/-- A status code with its phrase. -/
def statusText (status : Nat) : String :=
  toString status ++ " " ++ (statusPhrases.lookup status).getD "<unknown status code>"

end Tariff
