import MergedMining.Base64
import MergedMining.Fault
import MergedMining.Json.Members

/-!
# Calls over HTTP

A call is posted as a JSON object, with name and password in the header.  The result counts only when the status is a
success; a body with an error in it is a refusal whatever the status.  Trouble below HTTP is counted.
-/

namespace MergedMining

/-- A request to be posted. -/
structure HttpRequest where
  url : String
  headers : List (String × String)
  body : String
  deriving Repr, DecidableEq

/-- A response. -/
structure HttpResponse where
  status : Nat
  body : String
  deriving Repr, DecidableEq

/-- What carries requests: none when no response came, or it broke off. -/
abbrev HttpTransport := HttpRequest → Option HttpResponse

namespace HttpResponse

/-- Whether the status is a success. -/
def isSuccess (r : HttpResponse) : Bool := 200 ≤ r.status && r.status < 300

/-- The standard phrases of statuses. -/
def phrases : List (Nat × String) :=
  [(100, "Continue"), (101, "Switching Protocols"), (102, "Processing"), (200, "OK"), (201, "Created"),
    (202, "Accepted"), (203, "Non Authoritative Information"), (204, "No Content"), (205, "Reset Content"),
    (206, "Partial Content"), (207, "Multi-Status"), (208, "Already Reported"), (226, "IM Used"),
    (300, "Multiple Choices"), (301, "Moved Permanently"), (302, "Found"), (303, "See Other"),
    (304, "Not Modified"), (305, "Use Proxy"), (307, "Temporary Redirect"), (308, "Permanent Redirect"),
    (400, "Bad Request"), (401, "Unauthorized"), (402, "Payment Required"), (403, "Forbidden"), (404, "Not Found"),
    (405, "Method Not Allowed"), (406, "Not Acceptable"), (407, "Proxy Authentication Required"),
    (408, "Request Timeout"), (409, "Conflict"), (410, "Gone"), (411, "Length Required"),
    (412, "Precondition Failed"), (413, "Payload Too Large"), (414, "URI Too Long"),
    (415, "Unsupported Media Type"), (416, "Range Not Satisfiable"), (417, "Expectation Failed"),
    (418, "I'm a teapot"), (421, "Misdirected Request"), (422, "Unprocessable Entity"), (423, "Locked"),
    (424, "Failed Dependency"), (425, "Too Early"), (426, "Upgrade Required"), (428, "Precondition Required"),
    (429, "Too Many Requests"), (431, "Request Header Fields Too Large"),
    (451, "Unavailable For Legal Reasons"), (500, "Internal Server Error"), (501, "Not Implemented"),
    (502, "Bad Gateway"), (503, "Service Unavailable"), (504, "Gateway Timeout"),
    (505, "HTTP Version Not Supported"), (506, "Variant Also Negotiates"), (507, "Insufficient Storage"),
    (508, "Loop Detected"), (510, "Not Extended"), (511, "Network Authentication Required")]

/-- A status with its phrase. -/
def statusLine (r : HttpResponse) : String :=
  s!"{r.status} " ++ (phrases.lookup r.status).getD "<unknown status code>"

/-- An error that a daemon reports. -/
def error? (v : Json) : Option (Int × String) := do
  let m ← Json.members (["code", "message"].map Json.field) v
  return (← m.required "code" Json.toInt64?, ← m.required "message" Json.toStr?)

/-- The members of a body. -/
structure Body where
  result : Option Json
  error : Option (Int × String)

/-- Reads a body. -/
def body? (text : String) : Option Body := do
  let d ← Json.Document.parse? text
  let m ← d.members (["result", "error"].map Json.field)
  return ⟨← m.optionalWithDefault "result" some, ← m.optionalWithDefault "error" error?⟩

/-- The result that a response brings. -/
def result (r : HttpResponse) : Except CallFault Json :=
  match body? r.body with
  | none => if r.isSuccess then .error .malformed else .error (.status r.statusLine)
  | some body =>
    match body.error with
    | some (code, message) => .error (.answered message code)
    | none => if r.isSuccess then .ok (body.result.getD .null) else .error (.status r.statusLine)

end HttpResponse

/-- A daemon reached over HTTP, and how often the transport failed. -/
structure HttpClient where
  url : String
  username : String
  password : String
  sickness : Nat
  deriving Repr

namespace HttpClient

/-- The number that all requests carry. -/
def requestId : Nat := 1219

/-- The request of a call. -/
def request (c : HttpClient) (method : String) (params : Json) : HttpRequest where
  url := c.url
  headers := [
    ("authorization", "Basic " ++ Base64.encode (Bytes.ofText (c.username ++ ":" ++ c.password))),
    ("accept", "application/json"),
    ("content-type", "application/json")]
  body := Json.compact (.obj [("id", .ofNat requestId), ("jsonrpc", .str "2.0"), ("method", .str method),
    ("params", params)])

/-- Makes a call. -/
def call (c : HttpClient) (transport : HttpTransport) (method : String) (params : Json) :
    Except CallFault Json × HttpClient :=
  match transport (c.request method params) with
  | none => (.error .transport, { c with sickness := c.sickness + 1 })
  | some response => (response.result, c)

end HttpClient

end MergedMining
