/-!
# Status codes

The numbers with which a server says what became of a request, and the phrases for them.
-/

namespace MarketDag

/-- The number of an answer, of three digits. -/
structure Status where
  code : Nat
  bounds : 100 ≤ code ∧ code < 1000
deriving DecidableEq, Repr

namespace Status

/-- The status of a number of three digits. -/
def ofNat? (n : Nat) : Option Status := if h : 100 ≤ n ∧ n < 1000 then some ⟨n, h⟩ else none

/-- The answer of a server that has what was asked for. -/
def ok : Status := ⟨200, by decide⟩

/-- The answer of a server that does not have what was asked for. -/
def notFound : Status := ⟨404, by decide⟩

/-- Does a status say that a request went well? -/
def isSuccess (s : Status) : Bool := 200 ≤ s.code ∧ s.code < 300

/-- The numbers with phrases. -/
def phrases : List (Nat × String) :=
  [(100, "Continue"), (101, "Switching Protocols"), (102, "Processing"), (103, "Early Hints"),
   (200, "OK"), (201, "Created"), (202, "Accepted"), (203, "Non Authoritative Information"),
   (204, "No Content"), (205, "Reset Content"), (206, "Partial Content"), (207, "Multi-Status"),
   (208, "Already Reported"), (226, "IM Used"), (300, "Multiple Choices"),
   (301, "Moved Permanently"), (302, "Found"), (303, "See Other"), (304, "Not Modified"),
   (305, "Use Proxy"), (307, "Temporary Redirect"), (308, "Permanent Redirect"),
   (400, "Bad Request"), (401, "Unauthorized"), (402, "Payment Required"), (403, "Forbidden"),
   (404, "Not Found"), (405, "Method Not Allowed"), (406, "Not Acceptable"),
   (407, "Proxy Authentication Required"), (408, "Request Timeout"), (409, "Conflict"),
   (410, "Gone"), (411, "Length Required"), (412, "Precondition Failed"),
   (413, "Payload Too Large"), (414, "URI Too Long"), (415, "Unsupported Media Type"),
   (416, "Range Not Satisfiable"), (417, "Expectation Failed"), (418, "I'm a teapot"),
   (421, "Misdirected Request"), (422, "Unprocessable Entity"), (423, "Locked"),
   (424, "Failed Dependency"), (425, "Too Early"), (426, "Upgrade Required"),
   (428, "Precondition Required"), (429, "Too Many Requests"),
   (431, "Request Header Fields Too Large"), (451, "Unavailable For Legal Reasons"),
   (500, "Internal Server Error"), (501, "Not Implemented"), (502, "Bad Gateway"),
   (503, "Service Unavailable"), (504, "Gateway Timeout"), (505, "HTTP Version Not Supported"),
   (506, "Variant Also Negotiates"), (507, "Insufficient Storage"), (508, "Loop Detected"),
   (510, "Not Extended"), (511, "Network Authentication Required")]

/-- The phrase of a status. -/
def phrase (s : Status) : String := (phrases.lookup s.code).getD "<unknown status code>"

/-- The number and the phrase. -/
def toText (s : Status) : String := s!"{s.code} {s.phrase}"

instance : ToString Status := ⟨toText⟩

end Status

/-- The method of a request: a word without blanks or separators. -/
structure Method where
  name : String
deriving DecidableEq, Repr

namespace Method

/-- May a character stand in a method? -/
def isTokenChar (c : Char) : Bool := c.isAlphanum ∨ "!#$%&'*+-.^_`|~".toList.contains c

/-- The method of a word. -/
def ofText? (s : String) : Option Method :=
  if ¬ s.isEmpty ∧ s.toList.all isTokenChar then some ⟨s⟩ else none

/-- The method of all requests to a block store. -/
def post : Method := ⟨"POST"⟩

instance : ToString Method := ⟨name⟩

end Method

end MarketDag
