import NetconfServer.Networking.Server

/-! # The process around the server

`mbed_ssl_server` from its first line: the contexts of the TLS library are initialised and configured,
a failure on the way goes to the label `exit`, and what the label `reset` starts is the machine of
`Server`. `calls` is a history variable: the calls into the library, up to a fault. The session cache
is always there, since the function declares a context for it unconditionally.
-/

namespace NetconfServer.Networking
open Memory CString Library Parsing

/-- The local variables of `mbed_ssl_server` that belong to the library. -/
inductive Context where
  | listenFd
  | clientFd
  | ssl
  | conf
  | cache
  | srvcert
  | cacert
  | pkey
  | entropy
  | ctrDrbg
  deriving DecidableEq

/-- `MBEDTLS_SSL_VERIFY_NONE`, `_OPTIONAL` and `_REQUIRED`. -/
inductive Authmode where
  | none
  | optional
  | required
  deriving DecidableEq

/-- The functions of the library, with the arguments that are not the same in every call. -/
inductive Call where
  | init (c : Context)
  | debugSetThreshold (level : ℤ)
  | ctrDrbgSeed (pers : CString)
  | x509CrtParseFile (crt : Context) (path : CString)
  | pkParseKeyfile (path : CString)
  | netBind (port : CString)
  | sslConfigDefaults
  | sslConfRng
  | sslConfDbg
  | sslConfSessionCache
  | sslConfAuthmode (authmode : Authmode)
  | sslConfCaChain (crt : Context)
  | sslConfOwnCert (crt : Context)
  | sslSetup
  | netFree (c : Context)
  | sslSessionReset
  | netAccept
  | sslSetBio
  | sslHandshake
  | sslRead
  | sslGetCiphersuite
  | sslWrite
  | sslCloseNotify
  | free (c : Context)
  | exit (ret : ℤ)

def DEBUG_LEVEL : ℤ := 0
def SERVER_PORT : CString := lit "6513"
def SERVER_CERTIFICATE_FILE : CString := lit "/home/kris/certs/server.crt"
def SERVER_KEY_FILE : CString := lit "/home/kris/certs/server.key"
def CA_CERTIFICATE_FILE : CString := lit "/home/kris/certs/ca.crt"

/-! ## Before the label `reset` -/

/-- The results of the calls to come that are looked at, and the calls made. -/
structure World where
  answers : ℕ → ℤ
  calls : List Call

/-- An error is the value of `ret` with which the label `exit` is reached. -/
abbrev SetUp := ExceptT ℤ (StateM World)

def SetUp.call (c : Call) : SetUp Unit := fun w => (.ok (), { w with calls := w.calls ++ [c] })

/-- A call whose result sends the function to the label `exit` unless it is 0. -/
def SetUp.checked (c : Call) : SetUp Unit := fun w =>
  let ret := w.answers 0
  let w := { answers := fun n => w.answers (n + 1), calls := w.calls ++ [c] }
  if ret ≠ 0 then (.error ret, w) else (.ok (), w)

open SetUp in
def setUp : SetUp Unit := do
  call (.init .listenFd)
  call (.init .clientFd)
  call (.init .ssl)
  call (.init .conf)
  call (.init .cache)
  call (.init .srvcert)
  call (.init .cacert)
  call (.init .pkey)
  call (.init .entropy)
  call (.init .ctrDrbg)
  call (.debugSetThreshold DEBUG_LEVEL)
  checked (.ctrDrbgSeed (lit "ssl_server"))
  checked (.x509CrtParseFile .cacert CA_CERTIFICATE_FILE)
  checked (.x509CrtParseFile .srvcert SERVER_CERTIFICATE_FILE)
  checked (.pkParseKeyfile SERVER_KEY_FILE)
  checked (.netBind SERVER_PORT)
  checked .sslConfigDefaults
  call .sslConfRng
  call .sslConfDbg
  call .sslConfSessionCache
  call (.sslConfAuthmode .required)
  call (.sslConfCaChain .cacert)
  checked (.sslConfOwnCert .srvcert)
  checked .sslSetup

/-- From the label `reset` up to the `accept`; the result of `mbedtls_ssl_session_reset` is ignored. -/
def resetCalls : List Call := [.netFree .clientFd, .sslSessionReset]

/-- From the label `exit` on. -/
def exitCalls (ret : ℤ) : List Call :=
  [.netFree .clientFd, .netFree .listenFd, .free .srvcert, .free .pkey, .free .ssl, .free .conf,
    .free .cache, .free .ctrDrbg, .free .entropy, .exit ret]

/-! ## The process -/

inductive Stage where
  | serving (s : Server)
  /-- After the `mbedtls_exit`. -/
  | exited (ret : ℤ)

structure Process where
  stage : Stage
  calls : List Call

def Process.start (answers : ℕ → ℤ) (supply : Supply) : Process :=
  match setUp ⟨answers, []⟩ with
  | (.error ret, w) => ⟨.exited ret, w.calls ++ exitCalls ret⟩
  | (.ok (), w) => ⟨.serving (.boot supply), w.calls ++ resetCalls⟩

/-- The call that an outcome is the outcome of. -/
def Outcome.call : Outcome → Call
  | .accept _ => .netAccept
  | .handshake _ _ => .sslHandshake
  | .read _ | .readError _ => .sslRead
  | .write _ => .sslWrite
  | .closeNotify _ => .sslCloseNotify

/-- The value of `ret` after an outcome, that of `write_to_client` after a write. -/
def Outcome.ret : Outcome → ℤ
  | .accept ret => ret
  | .handshake ret _ => ret
  | .read chunk => chunk.bytes.length
  | .readError ret => ret
  | .write ret => (writeTurn ret).getD ret
  | .closeNotify ret => ret

/-- The calls up to the next one that is waited for. -/
def callsAfter (o : Outcome) : Control → Control → List Call
  | .accepting, .handshaking => [.sslSetBio]
  | .reading, .writing _ _ => [.sslGetCiphersuite]
  | _, .accepting => resetCalls
  | _, .exited => exitCalls o.ret
  | _, _ => []

def Process.step (lib : Libxml2) (p : Process) (o : Outcome) : Option Process :=
  match p.stage with
  | .exited _ => none
  | .serving s => (Networking.step lib s o).map fun s' =>
    { stage := match s'.control with
        | .exited => .exited o.ret
        | _ => .serving s'
      calls := p.calls ++ o.call :: callsAfter o s.control s'.control }

/-- What the process ends with: the argument of `mbedtls_exit`, or the 0 that `main` returns whatever
`mbed_ssl_server` returned. -/
def Process.ended (p : Process) : Option ℤ :=
  match p.stage with
  | .exited ret => some ret
  | .serving s => match s.control with
    | .returned => some 0
    | _ => none

/-- The status that the parent of the process is told: the low eight bits. -/
def Process.status (p : Process) : Option ℤ := p.ended.map (· % 256)

end NetconfServer.Networking
