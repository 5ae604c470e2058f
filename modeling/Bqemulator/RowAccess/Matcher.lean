import Bqemulator.Catalog.Models

/-!
# Callers and the policies that apply to them

A policy applies to a caller when one of its grantees does: `allUsers`, `allAuthenticatedUsers`,
or a member `kind:value` with a kind the matcher knows.
-/

namespace Bqemulator

open Text

/-- The caller of a query: an IAM member, its groups, and whether it was identified at all. -/
structure CallerIdentity where
  principal : String
  groups : List String := []
  isAuthenticated : Bool := true
deriving DecidableEq

namespace CallerIdentity

def kind (c : CallerIdentity) : String :=
  match splitOnce ':' c.principal with
  | some (kind, _) => kind
  | none => c.principal

def email (c : CallerIdentity) : Option String :=
  match splitOnce ':' c.principal with
  | some (kind, rest) => if kind = "user" ∨ kind = "serviceAccount" then some rest else none
  | none => none

def domain (c : CallerIdentity) : Option String :=
  c.email.bind fun e => (splitOnce '@' e).map fun parts => lower parts.2

end CallerIdentity

def normaliseEmail (email : String) : String :=
  match splitOnce '@' email with
  | some (localPart, host) => localPart ++ "@" ++ lower host
  | none => email

def emailMatches (email : String) (caller : CallerIdentity) (expectKind : String) : Bool :=
  caller.kind = expectKind &&
    caller.email.any fun e => normaliseEmail email = normaliseEmail e

def domainMatches (host : String) (caller : CallerIdentity) : Bool :=
  caller.domain = some (lower host)

def groupMatches (value : String) (caller : CallerIdentity) : Bool :=
  caller.groups.any fun g => normaliseEmail g = normaliseEmail value

def kindMatches (kind value : String) (caller : CallerIdentity) : Bool :=
  if kind = "user" then emailMatches value caller "user"
  else if kind = "serviceAccount" then emailMatches value caller "serviceAccount"
  else if kind = "domain" then domainMatches value caller
  else if kind = "group" then groupMatches value caller
  else false

/-- Whether a grantee names the caller. -/
def granteeMatches (grantee : String) (caller : CallerIdentity) : Bool :=
  let g := strip grantee
  if g = "" then false
  else if g = "allUsers" then true
  else if g = "allAuthenticatedUsers" then caller.isAuthenticated
  else match splitOnce ':' g with
    | none => false
    | some (kind, value) => strip value ≠ "" && kindMatches kind (strip value) caller

/-- The policies that apply to the caller. -/
def applicablePolicies (caller : CallerIdentity) (ps : List RowAccessPolicyMeta) :
    List RowAccessPolicyMeta :=
  ps.filter fun p => p.grantees.any fun g => granteeMatches g caller

end Bqemulator
