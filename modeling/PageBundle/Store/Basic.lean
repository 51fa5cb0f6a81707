import PageBundle.Charset.Basic
import PageBundle.Store.Error

/-!
# Stores

A store holds resources and artifacts under paths from the web root. It is what can be done with
it, and everything that works on resources is given the store it works on. Texts are read and
written through a charset.
-/

namespace PageBundle

open Store (Error)

/-- The text of bytes that were read from `path`. -/
def Charset.decode (c : Charset) (path : String) (bs : Bytes) : Except Error String :=
  match c.decode? bs with
  | some text => .ok text
  | none => .error (.encoding path c.name)

/-- The bytes of a text that is to be written to `path`. -/
def Charset.encode (c : Charset) (path text : String) : Except Error Bytes :=
  match c.encode? text with
  | some bs => .ok bs
  | none => .error (.encoding path c.name)

/-- A place for resources whose effects are those of `m`. -/
structure Store (m : Type → Type) where
  /-- The contents of a resource. -/
  read : String → m (Except Error Bytes)
  /-- Creates or replaces a resource. -/
  write : String → Bytes → m (Except Error Unit)
  /-- Whether there is a resource. -/
  contains : String → m (Except Error Bool)

namespace Store

variable {m : Type → Type} [Monad m]

/-- Reads a resource as a text. -/
def readText (store : Store m) (charset : Charset) (path : String) : m (Except Error String) := do
  return (← store.read path).bind (charset.decode path)

/-- Writes a text as a resource. -/
def writeText (store : Store m) (charset : Charset) (path text : String) :
    m (Except Error Unit) :=
  match charset.encode path text with
  | .ok bs => store.write path bs
  | .error e => pure (.error e)

end Store

end PageBundle
