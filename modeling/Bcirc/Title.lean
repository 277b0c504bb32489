import Bcirc.Channel

/-!
# The title plugin (`plugins/src/title/title.c`, `urls.c`)

A URL in a message to a known channel is fetched and the title of the page
queued for that channel. `TitleLib` stands for the two searches in text
that are not the plugin's own: the match of the title pattern, as the
offsets of its group, and the vendored entity decoder.
-/

namespace Bcirc

open CProg CStr

structure TitleLib where
  titleMatch : Str → Option (Nat × Nat)
  decodeHtmlEntitiesUtf8 : Str → Str

def titleMaxLen : Nat := 250

/-! ## The URL filter -/

def isNewline (c : UInt8) : Bool := c == 10

/-- Found or not, a list that was read answers `true`. -/
def checkUrl (str : Str) : Prog World Bool := do
  let w ← get
  match w.urls with
  | none => pure false
  | some urls =>
      if (tokens isNewline urls).any fun token => (strstr str token).isSome then pure true
      else pure true

/-- Called with `urls` NULL. -/
def getUrls : Prog World Bool := do
  let w ← get
  match w.urlsFile with
  | none => pure false
  | some content => do
      if content ≠ [] then
        modify fun w => { w with urls := some (w.urls.getD [] ++ content) }
      pure true

def addUrl (params : List Arg) : Prog World Int := do
  let nick ← (← param params 1).toStr
  let msg ← (← param params 4).toStr
  match msg, nick with
  | some msg, some _ => do
      if strstr msg (ascii "!addurl ") ≠ some 0 then return bcircPluginContinue
      if 255 < msg.length then return bcircPluginContinue
      let str := msg.drop 8
      if ← checkUrl str then return bcircPluginContinue
      let w ← get
      if !w.urlsWritable then throw .nullPointer -- `fclose(NULL)`
      modify fun w =>
        { w with urlsFile := some (w.urlsFile.getD [] ++ str ++ ascii "\n"), urls := none }
      let _ ← getUrls
      pure bcircPluginOk
  | _, _ => pure bcircPluginContinue

/-! ## Fetching a title -/

structure Ark where
  srvSave : Nat
  targetSave : Str
  nickSave : Str
  tries : Nat
  found : Bool
  deriving DecidableEq, Repr

def isUnwanted (c : UInt8) : Bool := c == 13 || c == 9 || c == 10

def addToPrivmsgQueue (msg target : Str) (srv : Nat) : Prog World Unit :=
  modify fun w => { w with privmsgQueue := w.privmsgQueue ++ [(msg, target, srv)] }

def writeCallback (lib : TitleLib) (ark : Ark) (httpCode : Int) (ptr : List UInt8) :
    Prog World Ark := do
  if 299 < httpCode then return ark
  let response := untilNul ptr
  match lib.titleMatch response with
  | none => pure ark
  | some (rmSo, rmEo) => do
      if ark.found then return ark
      let ark := { ark with found := true }
      let len := rmEo - rmSo
      if titleMaxLen < len then return ark
      let title := lib.decodeHtmlEntitiesUtf8 ((response.drop rmSo).take len)
      let newTitle := title.filter (!isUnwanted ·)
      addToPrivmsgQueue newTitle ark.targetSave ark.srvSave
      pure ark

def writeChunks (lib : TitleLib) : List (Int × List UInt8) → Ark → Prog World Ark
  | [], ark => pure ark
  | chunk :: chunks, ark => do
      let ark ← writeCallback lib ark chunk.1 chunk.2
      writeChunks lib chunks ark

/-- `curl_easy_init`. -/
def curlInit : Prog World Bool := do
  let w ← get
  modify fun w => { w with curlInits := w.curlInits.tail }
  pure (w.curlInits.headD true)

/-- `curl_easy_perform`; a script that is used up has empty answers. -/
def curlPerform (lib : TitleLib) (ark : Ark) : Prog World (Bool × Ark) := do
  let w ← get
  let transfer := w.transfers.headD { chunks := [], ok := true }
  modify fun w => { w with transfers := w.transfers.tail }
  let ark ← writeChunks lib transfer.chunks ark
  pure (transfer.ok, ark)

/-- The first argument is how many tries are left, three to begin with;
what `http_request` returns is not looked at. -/
def httpRequest (lib : TitleLib) : Nat → Ark → Prog World Unit
  | left, ark => do
      if !(← curlInit) then return ()
      let (ok, ark) ← curlPerform lib ark
      if ok || ark.found then return ()
      match left with
      | 0 => pure ()
      | left + 1 => httpRequest lib left { ark with tries := ark.tries + 1 }

/-! ## Looking for a URL -/

/-- The length of the match of `https?:\/\/[^\ ]+` at the start of `s`. -/
def matchUrlAt (s : Str) : Option Nat :=
  let rest (n : Nat) := ((s.drop n).takeWhile fun c => c != 32 && c != 92).length
  if (ascii "https://").isPrefixOf s && rest 8 > 0 then some (8 + rest 8)
  else if (ascii "http://").isPrefixOf s && rest 7 > 0 then some (7 + rest 7)
  else none

/-- `regexec` with that pattern: start and end of the leftmost match. -/
def matchUrl : Str → Option (Nat × Nat)
  | [] => none
  | c :: s =>
    match matchUrlAt (c :: s) with
    | some len => some (0, len)
    | none => (matchUrl s).map fun m => (m.1 + 1, m.2 + 1)

def checkForUrl (lib : TitleLib) (params : List Arg) : Prog World Int := do
  if params.any (· == .null) then return bcircPluginFail
  let srv ← deref (← (← param params 0).toServer)
  let nick ← deref (← (← param params 1).toStr)
  let target ← deref (← (← param params 3).toStr)
  let msg ← deref (← (← param params 4).toStr)
  match ← getChannel target srv with
  | none => pure bcircPluginContinue
  | some _ =>
    match matchUrl msg with
    | none => pure bcircPluginContinue
    | some (rmSo, rmEo) => do
        let url := (msg.drop rmSo).take (rmEo - rmSo)
        let newArk : Ark :=
          { srvSave := srv, targetSave := target, nickSave := nick, tries := 0, found := false }
        let w ← get
        if w.hasFilter then
          if !(← checkUrl url) then return bcircPluginOk
        httpRequest lib 3 newArk
        pure bcircPluginOk

end Bcirc
