import DonationFlow.Json.Value

/-!
# Exchanges over HTTP

A client posts a JSON value and gets a status with a text, or no answer at all.
The other end of the line is a list of replies to come, so that what a client
does can be stated for every such list.
-/

namespace DonationFlow.Http

inductive Reply where
  /-- No answer: the connection was closed, or none could be made. -/
  | dropped
  | answered (status : Nat) (body : String)
  deriving DecidableEq, Repr

/-- A reply with these.  A status of three digits answers, unless it is an
interim one, behind which the answer is still to come; some statuses never come
with a text. -/
def Reply.of (status : Nat) (body : String) : Reply :=
  if status < 100 ∨ 999 < status then .dropped
  else if status < 200 ∧ status ≠ 101 then .dropped
  else .answered status (if status = 101 ∨ status = 204 ∨ status = 304 then "" else body)

structure Post where
  url : String
  body : Json
  deriving Repr

/-- A line to the other end, and the client's clock. -/
structure Line where
  /-- The replies to come, in order. -/
  replies : List Reply := []
  /-- The reply once they are used up. -/
  idle : Reply := .dropped
  /-- What was posted, the latest first. -/
  posted : List Post := []
  /-- When it was posted, by the clock. -/
  times : List Nat := []
  /-- Milliseconds slept so far. -/
  clock : Nat := 0

namespace Line

def post (line : Line) (post : Post) : Line × Reply :=
  ({ line with
      replies := line.replies.tail
      posted := post :: line.posted
      times := line.clock :: line.times },
    line.replies.headD line.idle)

def sleep (line : Line) (milliseconds : Nat) : Line :=
  { line with clock := line.clock + milliseconds }

end Line

def isSuccess (status : Nat) : Bool := 200 ≤ status && status < 300

def isClientError (status : Nat) : Bool := 400 ≤ status && status < 500

def tooManyRequests : Nat := 429

/-- The registered phrases. -/
def phrases : List (Nat × String) :=
  [(100, "Continue"), (101, "Switching Protocols"), (102, "Processing"), (103, "Early Hints"),
   (200, "OK"), (201, "Created"), (202, "Accepted"), (203, "Non Authoritative Information"),
   (204, "No Content"), (205, "Reset Content"), (206, "Partial Content"), (207, "Multi-Status"),
   (208, "Already Reported"), (226, "IM Used"),
   (300, "Multiple Choices"), (301, "Moved Permanently"), (302, "Found"), (303, "See Other"),
   (304, "Not Modified"), (305, "Use Proxy"), (307, "Temporary Redirect"),
   (308, "Permanent Redirect"),
   (400, "Bad Request"), (401, "Unauthorized"), (402, "Payment Required"), (403, "Forbidden"),
   (404, "Not Found"), (405, "Method Not Allowed"), (406, "Not Acceptable"),
   (407, "Proxy Authentication Required"), (408, "Request Timeout"), (409, "Conflict"),
   (410, "Gone"), (411, "Length Required"), (412, "Precondition Failed"),
   (413, "Payload Too Large"), (414, "URI Too Long"), (415, "Unsupported Media Type"),
   (416, "Range Not Satisfiable"), (417, "Expectation Failed"), (418, "I'm a teapot"),
   (421, "Misdirected Request"), (422, "Unprocessable Entity"), (423, "Locked"),
   (424, "Failed Dependency"), (425, "Too Early"), (426, "Upgrade Required"),
   (428, "Precondition Required"), (429, "Too Many Requests"),
   (431, "Request Header Fields Too Large"), (451, "Unavailable For Legal Reasons"),
   (500, "Internal Server Error"), (501, "Not Implemented"), (502, "Bad Gateway"),
   (503, "Service Unavailable"), (504, "Gateway Timeout"), (505, "HTTP Version Not Supported"),
   (506, "Variant Also Negotiates"), (507, "Insufficient Storage"), (508, "Loop Detected"),
   (510, "Not Extended"), (511, "Network Authentication Required")]

/-- The status with its phrase, as in `404 Not Found`. -/
def statusLine (status : Nat) : String :=
  let phrase := ((phrases.find? (·.1 = status)).map (·.2)).getD "<unknown status code>"
  s!"{Text.decimal status} {phrase}"

end DonationFlow.Http
