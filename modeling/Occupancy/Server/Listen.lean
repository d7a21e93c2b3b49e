import Occupancy.Server.Requests

/-!
# Listening for clients

Connections are secured if both the certificate and the key are there; then both have to be usable. A
secured server reports that it listens before it has taken its port, an open one afterwards.
-/

namespace Occupancy.Server.Listen

/-- Serves on a port until the end is called. Results in whether that was possible. -/
def serveOpen (log : LogFilter) (port : UInt16) : Program Calls Bool :=
  .ask (.bind port) fun (bound : Bool) =>
    if bound then
      (report log (.listening .http port)).bind fun _ => .ask .serve fun _ => .done true
    else .done false

def serveSecured (log : LogFilter) (port : UInt16) (cert key : String) : Program Calls Bool :=
  .ask (.identity cert key) fun (usable : Bool) =>
    if usable then
      (report log (.listening .https port)).bind fun _ =>
        .ask (.bind port) fun (bound : Bool) =>
          if bound then .ask .serve fun _ => .done true else .done false
    else .done false

def hasBoth (tls : Config.TlsPaths) : Program Calls Bool :=
  .ask (.exists_ tls.cert) fun (cert : Bool) =>
    if cert then .ask (.exists_ tls.key) fun (key : Bool) => .done key else .done false

/-- Serves secured connections with the files named, if both are there, and open ones otherwise. A
file that cannot be read ends the matter. -/
def run (log : LogFilter) (port : UInt16) (tls : Option Config.TlsPaths) :
    Program Calls Bool :=
  match tls with
  | none => serveOpen log port
  | some paths =>
    (hasBoth paths).bind fun both =>
      if both then
        .ask (.read paths.cert) fun
          | none => .done false
          | some cert =>
            .ask (.read paths.key) fun
              | none => .done false
              | some key => serveSecured log port cert key
      else serveOpen log port

end Occupancy.Server.Listen
