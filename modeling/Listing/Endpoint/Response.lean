import Listing.Endpoint

/-!
# Responses

A request over a network names the way in which it is answered, and gets a `Response`. A request
that is at fault gets a response too, which says why; all other errors are errors of the
application.
-/

namespace Listing

/-- What a request is answered with. -/
inductive Answer
  | rows (r : Rows)
  | page (p : Page)

/-- The way in which a request is answered. -/
inductive Reading
  | rows
  | paginated
  | simplyPaginated
  | cursorPaginated

/-- The way with a name. -/
def Reading.named? (name : String) : Option Reading :=
  match name with
  | "get" => some .rows
  | "paginate" => some .paginated
  | "simple_paginate" => some .simplyPaginated
  | "cursor_paginate" => some .cursorPaginated
  | _ => none

/-- A response. -/
inductive Response
  | answered (a : Answer)
  | refused (detail kind : String)

/-- The status of a response. -/
def Response.status : Response → Nat
  | .answered _ => 200
  | .refused _ _ => 400

/-- The name of faults of requests. -/
def QueryFault.kind : String := "invalid_query"

/-- Errors as responses where the request is at fault. -/
def Response.ofExcept : Except Error Answer → Except Error Response
  | .ok a => .ok (.answered a)
  | .error e =>
    match e.reported with
    | .query fault => .ok (.refused fault.message QueryFault.kind)
    | e => .error e

namespace Endpoint

/-- Answer a request in one of the ways. -/
def answer (e : Endpoint) (r : Reading) (request : Value) : Except Error Answer :=
  match r with
  | .rows => (e.get request).map .rows
  | .paginated => (e.paginate request).map .page
  | .simplyPaginated => (e.simplePaginate request).map .page
  | .cursorPaginated => (e.cursorPaginate request).map .page

/-- Respond to a request. -/
def respond (e : Endpoint) (r : Reading) (request : Value) : Except Error Response :=
  Response.ofExcept (e.answer r request)

end Endpoint

end Listing
