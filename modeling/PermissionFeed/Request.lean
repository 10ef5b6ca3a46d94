import PermissionFeed.PlayerId
import PermissionFeed.Row
import PermissionFeed.Text.Quoted

namespace PermissionFeed

inductive RequestError where
  | invalidPlayer (raw : String)
  | missing (field : String)
  | pastExpiry (key : String) (expiry now : Instant)
  deriving DecidableEq

def RequestError.message : RequestError → String
  | .invalidPlayer raw =>
      let shown := Text.Quoted.text raw
      s!"player_id must be a UUID (got {shown})"
  | .missing field => s!"{field} must be provided"
  | .pastExpiry key expiry now =>
      s!"expires_at must be in the future (key {key}, expires_at {expiry}, now {now})"

namespace Request

/-- A blank text is refused before it is read as an id, which trims once more. -/
def player (raw : String) : Except RequestError PlayerId :=
  let trimmed := Text.trim raw
  if trimmed.isEmpty then .error (.invalidPlayer raw)
  else (PlayerId.ofText trimmed).mapError fun _ => .invalidPlayer raw

def required (raw field : String) : Except RequestError String :=
  let trimmed := Text.trim raw
  if trimmed.isEmpty then .error (.missing field) else .ok trimmed

def groupName (raw : String) : Except RequestError String :=
  required raw "group_name"

def permission (raw : String) : Except RequestError String :=
  required raw "permission"

def names (raw : List String) (field : String) : Except RequestError (List String) :=
  let names := ((raw.map Text.trim).filter (!·.isEmpty)).foldl (fun names name => names.insert name) (∅ : NameSet)
  if names.isEmpty then .error (.missing field) else .ok names.toList

/-- One row per trimmed key that is not blank, ascending; the last row of a key counts. -/
def rows (raw : List Row) (field : String) : Except RequestError (List Row) :=
  let trimmed := raw.map fun row => { row with key := Text.trim row.key }
  let rows := Rows.ofRows (trimmed.filter (!·.key.isEmpty))
  if rows.isEmpty then .error (.missing field) else .ok rows.list

def grants (raw : List Grant) : Except RequestError (List Grant) :=
  rows raw "permission_grants"

def memberships (raw : List Membership) : Except RequestError (List Membership) :=
  rows raw "group_memberships"

def rejectPast (rows : List Row) (now : Instant) : Except RequestError Unit :=
  match rows with
  | [] => .ok ()
  | row :: rest =>
      match row.expiry with
      | none => rejectPast rest now
      | some expiry => if expiry ≤ now then .error (.pastExpiry row.key expiry now) else rejectPast rest now

end Request

end PermissionFeed
