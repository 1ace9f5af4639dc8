import Tincan.Library.Text

namespace Tincan.Xmpp

open Tincan.Library.Text

structure Jid where
  node : Bytes
  domain : Bytes
  resource : Bytes
  deriving DecidableEq

def Jid.bare (j : Jid) : Bytes := if j.node = [] then j.domain else j.node ++ 64 :: j.domain

def Jid.full (j : Jid) : Bytes := j.bare ++ 47 :: j.resource

inductive EngineState
  | stateNone
  | stateStart
  | stateOpening
  | stateOpen
  | stateClosed
  deriving DecidableEq

inductive StanzaName
  | iq
  | message
  | presence
  deriving DecidableEq

/-- The query element of the program: the texts of its first data and its
first type child. -/
structure Query where
  data : Option Bytes
  type : Option Bytes
  deriving DecidableEq

/-- An incoming stanza, as far as the program looks at it. -/
structure Stanza where
  name : StanzaName
  type : Bytes
  sender : Bytes
  query : Option Query
  deriving DecidableEq

inductive Show
  | none
  | offline
  | xa
  | away
  | dnd
  | online
  | chat
  deriving DecidableEq

structure PresenceStatus where
  jid : Jid
  available : Bool
  shown : Show
  priority : Int
  deriving DecidableEq

inductive Output
  | iq (type : Bytes) (recipient : Jid) (query : Query)
  | presence (status : PresenceStatus)
  deriving DecidableEq

/-- The library calls whose code is not part of the program. -/
structure Api where
  /-- `Jid(text)`. -/
  jid : Bytes → Jid
  /-- `Jid::Str`. -/
  str : Jid → Bytes
  matchRequestIq : Stanza → Bytes → Bool

def strGet : Bytes := bytes "get"

def Api.MatchesRequests (X : Api) : Prop :=
  ∀ stanza type, X.matchRequestIq stanza type = true ↔
    stanza.name = .iq ∧ stanza.type = type ∧ stanza.query ≠ none

def Api.plain : Api where
  jid s :=
    let bare := cutAt 47 s
    let resource := (s.drop bare.length).drop 1
    if bare.contains 64 then ⟨cutAt 64 bare, (bare.drop (cutAt 64 bare).length).drop 1, resource⟩
    else ⟨[], bare, resource⟩
  str := Jid.full
  matchRequestIq stanza type := stanza.name = .iq ∧ stanza.type = type ∧ stanza.query ≠ none

theorem plain_matchesRequests : Api.plain.MatchesRequests := by
  intro stanza type
  simp [Api.plain]

end Tincan.Xmpp
