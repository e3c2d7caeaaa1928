import Workflow.Failure
import Workflow.Json.Syntax
import Workflow.Text.Lowercase

/-!
# Network calls

What a script asks of the network and what it gets back. How a call travels is
not part of the library; it says only which calls are refused before they are
sent.
-/

namespace Workflow

/-! ## Requests -/

/-- A request. -/
structure HttpRequest where
  /-- the method -/
  method : String := "GET"
  /-- the address -/
  url : String
  /-- the headers -/
  headers : Fields String := []
  /-- the body, as text -/
  body : Option String := none
  /-- the body, as JSON -/
  json : Option Json := none

namespace HttpRequest

/-- The JSON form of a request; bodies that are absent are left out. -/
def toJson (r : HttpRequest) : Json :=
  .obj ([("method", .str r.method), ("url", .str r.url),
      ("headers", .obj (r.headers.map fun (k, v) => (k, .str v)))] ++
    (match r.body with
      | some s => [("body", .str s)]
      | none => []) ++
    (match r.json with
      | some v => [("json", v)]
      | none => []))

/-- The fields of a request met so far. -/
structure Draft where
  /-- the method -/
  method : Option String := none
  /-- the address -/
  url : Option String := none
  /-- the headers -/
  headers : Option (Fields String) := none
  /-- the body as text, which may be null -/
  body : Option (Option String) := none
  /-- the body as JSON, which may be null -/
  json : Option (Option Json) := none

/-- Takes up one member. -/
def Draft.take (d : Draft) (i : Nat) (name : String) (v : Json) : Except Json.DecodeError Draft :=
  match name with
  | "method" => do return { d with method := ← Json.fill d.method name i Json.text v }
  | "url" => do return { d with url := ← Json.fill d.url name i Json.text v }
  | "headers" => do return { d with headers := ← Json.fill d.headers name i (Json.fields Json.text) v }
  | "body" => do return { d with body := ← Json.fill d.body name i (Json.optional Json.text) v }
  | "json" => do return { d with json := ← Json.fill d.json name i (Json.optional Json.anyValue) v }
  | _ => .ok d

/-- The decoder of requests. -/
def decode : Json.Decoder HttpRequest :=
  Json.record "struct HttpRequest"
    (fun members => do
      let d ← Json.foldMembers Draft.take 0 members {}
      let url ← Json.require d.url "url"
      return { method := d.method.getD "GET", url, headers := d.headers.getD []
               body := d.body.getD none, json := d.json.getD none })
    (fun items => do
      let method ← Json.itemOr items 0 "GET" Json.text
      let url ← Json.item items 1 "struct HttpRequest with 5 elements" Json.text
      let headers ← Json.itemOr items 2 [] (Json.fields Json.text)
      let body ← Json.itemOr items 3 none (Json.optional Json.text)
      let json ← Json.itemOr items 4 none (Json.optional Json.anyValue)
      Json.noMoreThan items 5
      return { method, url, headers, body, json })

end HttpRequest

/-! ## Responses -/

/-- A response. -/
structure HttpResponse where
  /-- the status -/
  status : Nat
  /-- the headers -/
  headers : Fields String := []
  /-- the body -/
  body : String

namespace HttpResponse

/-- The JSON form of a response. -/
def toJson (r : HttpResponse) : Json :=
  .obj [("status", Json.nat r.status),
    ("headers", .obj (r.headers.map fun (k, v) => (k, .str v))), ("body", .str r.body)]

/-- The value in the body, if the body is JSON. -/
def bodyJson? (r : HttpResponse) : Option Json := Json.parse? r.body

/-- The fields of a response met so far. -/
structure Draft where
  /-- the status -/
  status : Option Nat := none
  /-- the headers -/
  headers : Option (Fields String) := none
  /-- the body -/
  body : Option String := none

/-- Takes up one member. -/
def Draft.take (d : Draft) (i : Nat) (name : String) (v : Json) : Except Json.DecodeError Draft :=
  match name with
  | "status" => do
    return { d with status := ← Json.fill d.status name i (Json.bounded 65535 "u16") v }
  | "headers" => do return { d with headers := ← Json.fill d.headers name i (Json.fields Json.text) v }
  | "body" => do return { d with body := ← Json.fill d.body name i Json.text v }
  | _ => .ok d

/-- The decoder of responses. -/
def decode : Json.Decoder HttpResponse :=
  Json.record "struct HttpResponse"
    (fun members => do
      let d ← Json.foldMembers Draft.take 0 members {}
      let status ← Json.require d.status "status"
      let body ← Json.require d.body "body"
      return ⟨status, d.headers.getD [], body⟩)
    (fun items => do
      let expected := "struct HttpResponse with 3 elements"
      let status ← Json.item items 0 expected (Json.bounded 65535 "u16")
      let headers ← Json.itemOr items 1 [] (Json.fields Json.text)
      let body ← Json.item items 2 expected Json.text
      Json.noMoreThan items 3
      return ⟨status, headers, body⟩)

end HttpResponse

/-! ## Methods -/

/-- The ASCII capitals of a character, where its capitals are ASCII. -/
def asciiCapitals? (c : Char) : Option (List Char) :=
  if c.toNat < 0x80 then some [c.toUpper]
  else
    match c with
    | 'ß' => some ['S', 'S']
    | 'ı' => some ['I']
    | 'ſ' => some ['S']
    | 'ﬀ' => some ['F', 'F']
    | 'ﬁ' => some ['F', 'I']
    | 'ﬂ' => some ['F', 'L']
    | 'ﬃ' => some ['F', 'F', 'I']
    | 'ﬄ' => some ['F', 'F', 'L']
    | 'ﬅ' => some ['S', 'T']
    | 'ﬆ' => some ['S', 'T']
    | _ => none

/-- The characters of a token beside letters and digits. -/
def tokenMarks : List Char := "!#$%&'*+-.^_`|~".toList

/-- Whether a character may stand in a method. -/
def isTokenChar (c : Char) : Bool :=
  c.isAlphanum || tokenMarks.contains c

/-- Whether a text, in capitals, is a method. -/
def isMethod (text : String) : Bool :=
  !text.isEmpty && text.toList.all fun c =>
    match asciiCapitals? c with
    | some cs => cs.all isTokenChar
    | none => false

/-- Why a request to an address that is no address is refused: an unfit method is
noticed before the address. -/
def HttpRequest.refusal (r : HttpRequest) : Failure :=
  if isMethod r.method then .network "builder error"
  else .network "Invalid method: invalid HTTP method"

end Workflow
