import Mathlib.Data.List.Basic
import Mathlib.Data.Nat.Digits.Defs

namespace OpenBroadcast.Signaling

/-- The characters of an identifier. -/
abbrev Text := List Char

/-- A version 4 UUID. -/
structure Uuid where
  bytes : Fin 16 → UInt8
  version : bytes 6 >>> 4 = 4
  variant : bytes 8 >>> 6 = 2

namespace Uuid

def hexByte (b : UInt8) : Text := [(b >>> 4).toNat.digitChar,(b &&& 15).toNat.digitChar]

def group (u : Uuid) (is : List (Fin 16)) : Text := is.flatMap (fun i => hexByte (u.bytes i))

/-- The hyphenated lower-case form, which `to_string` and `crypto.randomUUID` both give. -/
def toText (u : Uuid) : Text :=
  let hyphen := '-'
  u.group [0,1,2,3]++hyphen::u.group [4,5]++hyphen::u.group [6,7]++hyphen::u.group [8,9]++
    hyphen::u.group [10,11,12,13,14,15]

theorem length_group (u : Uuid) (is : List (Fin 16)) : (u.group is).length = 2*is.length := by
  induction is with
  | nil => rfl
  | cons i is ih =>
    simp only [group,List.flatMap_cons,List.length_append,List.length_cons,hexByte] at ih ⊢
    rw [ih,List.length_nil]
    omega

theorem length_toText (u : Uuid) : u.toText.length = 36 := by
  simp only [toText,List.length_append,List.length_cons,length_group,List.length_nil]

end Uuid

structure PeerInfo where
  peerId : Text
  isPublisher : Bool
  canRelay : Bool
  deriving DecidableEq, Repr

inductive SignalingMessage where
  | offer (peerId : Text) (targetPeerId : Option Text) (sdp : String)
  | answer (peerId targetPeerId : Text) (sdp : String)
  | iceCandidate (peerId targetPeerId : Text) (candidate : String) (sdpMid : Option String)
      (sdpMlineIndex : Option UInt32)
  | peerJoin (peerId streamId : Text) (isPublisher : Bool)
  | peerLeave (peerId : Text)
  | peerList (peers : List PeerInfo)
  | peerUpdate (peerId : Text) (streamId : Option Text) (isPublisher canRelay : Bool)
  | error (message : String)
  deriving DecidableEq, Repr

namespace SignalingMessage

/-- Offers, answers and ICE candidates, which are meant for one peer. -/
def directed : SignalingMessage → Bool
  | offer _ _ _ => true
  | answer _ _ _ => true
  | iceCandidate _ _ _ _ _ => true
  | _ => false

def target : SignalingMessage → Option Text
  | offer _ t _ => t
  | answer _ t _ => some t
  | iceCandidate _ t _ _ _ => some t
  | _ => none

end SignalingMessage

end OpenBroadcast.Signaling
