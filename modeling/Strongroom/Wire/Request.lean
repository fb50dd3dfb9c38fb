import Strongroom.Bytes.Base64
import Strongroom.Json.Writer
/-!
# Requests

The twelve requests of a client, the fields that each of them has on the line, and the line that
spells a request.
-/

namespace Strongroom

/-- What a request asks for. -/
inductive Method
  | authenticate
  | signup
  | login
  | logout
  | delete
  | upload
  | download
  | list
  | mkdir
  | remove
  | pwd
  | cd
deriving DecidableEq, Repr

/-- The fields of requests. -/
inductive Field
  | token
  | username
  | password
  | path
  | body
deriving DecidableEq, Repr

/-- A request of a client. -/
inductive Request
  | authenticate (token : String)
  | signup (username password : String)
  | login (username password : String)
  | logout (token : String)
  | delete (token : String)
  | upload (token path : String) (body : Bytes)
  | download (token path : String)
  | list (token path : String)
  | mkdir (token path : String)
  | remove (token path : String)
  | pwd (token : String)
  | cd (token path : String)
deriving DecidableEq, Repr

namespace Method

/-- All methods, in the order in which they are offered to a client that names an unknown one. -/
def all : List Method :=
  [.authenticate, .signup, .login, .logout, .delete, .upload, .download, .list, .mkdir, .remove,
    .pwd, .cd]

/-- The name of a method on the line. -/
def name : Method → String
  | .authenticate => "authenticate"
  | .signup => "signup"
  | .login => "login"
  | .logout => "logout"
  | .delete => "delete"
  | .upload => "upload"
  | .download => "download"
  | .list => "list"
  | .mkdir => "mkdir"
  | .remove => "remove"
  | .pwd => "pwd"
  | .cd => "cd"

/-- The name of a method in a complaint about the number of its fields. -/
def title : Method → String
  | .authenticate => "Authenticate"
  | .signup => "Signup"
  | .login => "Login"
  | .logout => "Logout"
  | .delete => "Delete"
  | .upload => "Upload"
  | .download => "Download"
  | .list => "List"
  | .mkdir => "Mkdir"
  | .remove => "Remove"
  | .pwd => "Pwd"
  | .cd => "Cd"

/-- The names of all methods. -/
def names : List String := all.map name

/-- The method of a name. -/
def ofName? (name : String) : Option Method :=
  all.find? fun method => method.name == name

/-- The fields of a method, in the order in which they are written. -/
def fields : Method → List Field
  | .signup => [.username, .password]
  | .login => [.username, .password]
  | .upload => [.token, .path, .body]
  | .download => [.token, .path]
  | .list => [.token, .path]
  | .mkdir => [.token, .path]
  | .remove => [.token, .path]
  | .cd => [.token, .path]
  | _ => [.token]

/-- Whether a field may be left out; it is empty then. -/
def isOptional : Method → Field → Bool
  | _, .token => true
  | .list, .path => true
  | _, _ => false

end Method

/-- The name of a field on the line. -/
def Field.name : Field → String
  | .token => "token"
  | .username => "username"
  | .password => "password"
  | .path => "path"
  | .body => "body"

namespace Request

/-- The method of a request. -/
def method : Request → Method
  | .authenticate .. => .authenticate
  | .signup .. => .signup
  | .login .. => .login
  | .logout .. => .logout
  | .delete .. => .delete
  | .upload .. => .upload
  | .download .. => .download
  | .list .. => .list
  | .mkdir .. => .mkdir
  | .remove .. => .remove
  | .pwd .. => .pwd
  | .cd .. => .cd

/-- The fields of a request as they stand on the line. -/
def values : Request → List String
  | .authenticate token => [token]
  | .signup username password => [username, password]
  | .login username password => [username, password]
  | .logout token => [token]
  | .delete token => [token]
  | .upload token path body => [token, path, Base64.toText body]
  | .download token path => [token, path]
  | .list token path => [token, path]
  | .mkdir token path => [token, path]
  | .remove token path => [token, path]
  | .pwd token => [token]
  | .cd token path => [token, path]

/-- A request as a record: the method first, then its fields. -/
def toDatum (r : Request) : Datum :=
  .record
    (("method", .text r.method.name) ::
      (r.method.fields.zip r.values).map fun item => (item.1.name, .text item.2))

/-- The line that spells a request. -/
def toLine (r : Request) : String :=
  String.ofList (Json.write r.toDatum)

end Request

end Strongroom
