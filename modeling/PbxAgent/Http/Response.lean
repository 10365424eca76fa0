import PbxAgent.Http.Request

/-!
# Responses

A response as it goes through the tunnel: a status line with the phrase and no number, the length
and the type of the body, the other fields, and the body.
-/

namespace PbxAgent.Http

/-- The registered phrase of a status. -/
def reasonPhrase? : Nat → Option String
  | 100 => some "Continue"
  | 101 => some "Switching Protocols"
  | 102 => some "Processing"
  | 103 => some "Early Hints"
  | 200 => some "OK"
  | 201 => some "Created"
  | 202 => some "Accepted"
  | 203 => some "Non Authoritative Information"
  | 204 => some "No Content"
  | 205 => some "Reset Content"
  | 206 => some "Partial Content"
  | 207 => some "Multi-Status"
  | 208 => some "Already Reported"
  | 226 => some "IM Used"
  | 300 => some "Multiple Choices"
  | 301 => some "Moved Permanently"
  | 302 => some "Found"
  | 303 => some "See Other"
  | 304 => some "Not Modified"
  | 305 => some "Use Proxy"
  | 307 => some "Temporary Redirect"
  | 308 => some "Permanent Redirect"
  | 400 => some "Bad Request"
  | 401 => some "Unauthorized"
  | 402 => some "Payment Required"
  | 403 => some "Forbidden"
  | 404 => some "Not Found"
  | 405 => some "Method Not Allowed"
  | 406 => some "Not Acceptable"
  | 407 => some "Proxy Authentication Required"
  | 408 => some "Request Timeout"
  | 409 => some "Conflict"
  | 410 => some "Gone"
  | 411 => some "Length Required"
  | 412 => some "Precondition Failed"
  | 413 => some "Payload Too Large"
  | 414 => some "URI Too Long"
  | 415 => some "Unsupported Media Type"
  | 416 => some "Range Not Satisfiable"
  | 417 => some "Expectation Failed"
  | 418 => some "I'm a teapot"
  | 421 => some "Misdirected Request"
  | 422 => some "Unprocessable Entity"
  | 423 => some "Locked"
  | 424 => some "Failed Dependency"
  | 425 => some "Too Early"
  | 426 => some "Upgrade Required"
  | 428 => some "Precondition Required"
  | 429 => some "Too Many Requests"
  | 431 => some "Request Header Fields Too Large"
  | 451 => some "Unavailable For Legal Reasons"
  | 500 => some "Internal Server Error"
  | 501 => some "Not Implemented"
  | 502 => some "Bad Gateway"
  | 503 => some "Service Unavailable"
  | 504 => some "Gateway Timeout"
  | 505 => some "HTTP Version Not Supported"
  | 506 => some "Variant Also Negotiates"
  | 507 => some "Insufficient Storage"
  | 508 => some "Loop Detected"
  | 510 => some "Not Extended"
  | 511 => some "Network Authentication Required"
  | _ => none

/-- A response with its body. -/
structure Response where
  status : Nat
  fields : Fields := []
  body : Bytes := []
  deriving DecidableEq, Repr

namespace Response

/-! ## The type of the body -/

/-- Blanks in front of a document. -/
def isBlank (c : UInt8) : Bool :=
  c = 0x20 || c = 0x09 || c = 0x0A || c = 0x0C || c = 0x0D

/-- Whether bytes start with a text in small letters, in letters of either case. -/
def startsWith (start : String) (b : Bytes) : Bool :=
  let p := Text.Utf8.encode start
  (b.take p.length).map Bytes.toLower == p

/-- The type of a body that comes without one. -/
def guessedType (body : Bytes) : String :=
  let start := body.dropWhile isBlank
  if startsWith "<!doctype html" start || startsWith "<html" start then "text/html; charset=utf-8"
  else if Text.Utf8.isValid body then "text/plain; charset=utf-8"
  else "application/octet-stream"

/-- Bytes that make a field value text. -/
def isTextByte (c : UInt8) : Bool :=
  c = 0x09 || (0x20 ≤ c && c < 0x7F)

/-- The first type that the response gives, if it is text, and a guess otherwise. -/
def contentType (r : Response) : Bytes :=
  match (r.fields.values contentTypeName).head? with
  | some v => if v.all isTextByte then v else Text.Utf8.encode (guessedType r.body)
  | none => Text.Utf8.encode (guessedType r.body)

/-! ## Bytes of a response -/

def lineEnd : Bytes := [0x0D, 0x0A]

/-- The status line: the phrase stands where others have number and phrase. -/
def statusLine (r : Response) : Bytes :=
  Text.Utf8.encode "HTTP/1.1 " ++ Text.Utf8.encode ((reasonPhrase? r.status).getD "")

/-- Fields that the response does not pass on as they are. -/
def isOwnField (name : Bytes) : Bool :=
  name = contentLengthName || name = contentTypeName || name = transferEncodingName

/-- A field as a line. -/
def fieldLine (name value : Bytes) : Bytes :=
  name ++ 0x3A :: 0x20 :: value

/-- The lines of the head. -/
def headLines (r : Response) : List Bytes :=
  [r.statusLine, fieldLine (Text.Utf8.encode "Content-Length") (decimalBytes r.body.length),
    fieldLine (Text.Utf8.encode "Content-Type") r.contentType]
  ++ (r.fields.lines.filter fun l => !isOwnField l.1).map fun l => fieldLine l.1 l.2

/-- The response as bytes. -/
def bytes (r : Response) : Bytes :=
  r.headLines.flatMap (· ++ lineEnd) ++ lineEnd ++ r.body

end Response

end PbxAgent.Http
