import QuerySieve.Sql.Dialect
import QuerySieve.Text
import QuerySieve.Url

/-!
# QuerySieve.Database.Address

The URL of a database: which dialect it speaks, and how to show the URL without its password.

A text is shown unchanged unless it has an `@`, without which there is no password in it. One with
an `@` that is no URL is not shown at all, for then nobody can say where its password is.
-/

namespace QuerySieve

/-- Why a database cannot be used. -/
inductive AddressError
  /-- No URL; the text is as it may be shown. -/
  | invalid (shown : String)
  /-- A URL of a scheme that no dialect has. -/
  | unsupported (scheme : String)
  deriving DecidableEq, Repr

/-- The sentence that tells the error. -/
def AddressError.message : AddressError → String
  | invalid shown => "invalid database url: " ++ shown
  | unsupported scheme => "unsupported database type: " ++ scheme

namespace Database

/-- The address as it may be shown. -/
def redact (address : String) : String :=
  if Text.hasChar '@' address then
    match Url.parse? address with
    | some url => url.maskPassword.text
    | none => "***"
  else address

/-- The address as it may be shown, or a word for there being none. -/
def redact? (address : Option String) : String := (address.map redact).getD "none"

/-- The URL of an address. -/
def url (address : String) : Except AddressError Url :=
  match Url.parse? address with
  | some url => .ok url
  | none => .error (.invalid (redact address))

/-- The dialect of a scheme. -/
def dialectOfScheme? (scheme : String) : Option Sql.Dialect :=
  [("sqlite", Sql.Dialect.sqlite), ("sqlite3", .sqlite), ("postgres", .postgres),
    ("postgresql", .postgres), ("mysql", .mysql), ("mariadb", .mysql)].lookup scheme

/-- The dialect of an address; white space around it does not count. -/
def dialect (address : String) : Except AddressError Sql.Dialect :=
  match url (Text.trim address) with
  | .error error => .error error
  | .ok url =>
    match dialectOfScheme? url.scheme with
    | some dialect => .ok dialect
    | none => .error (.unsupported url.scheme)

end Database

end QuerySieve
