/-!
# Channels of hooks

`Channel` and `AfterChannel` differ in the type of their hooks only. A
program builds them before it starts, by any sequence of `PushFront`,
`PushBack` and `Clear`.
-/

namespace Nrpc

namespace Pipeline

variable {H : Type}

/-- The source's `Channel` and `AfterChannel`. -/
structure Channel (H : Type) where
  handlers : List H

/-- The source's `NewChannel` and `NewAfterChannel`. -/
def newChannel : Channel H := ⟨[]⟩

/-- The source's `PushFront`. -/
def Channel.pushFront (p : Channel H) (h : H) : Channel H := ⟨h :: p.handlers⟩

/-- The source's `PushBack`. -/
def Channel.pushBack (p : Channel H) (h : H) : Channel H := ⟨p.handlers ++ [h]⟩

/-- The source's `Clear`. -/
def Channel.clear (_ : Channel H) : Channel H := ⟨[]⟩

/-- An operation on a channel. -/
inductive ChannelOp (H : Type)
  | pushFront (h : H)
  | pushBack (h : H)
  | clear

def Channel.apply (p : Channel H) : ChannelOp H → Channel H
  | .pushFront h => p.pushFront h
  | .pushBack h => p.pushBack h
  | .clear => p.clear

/-- The channel a sequence of operations builds. -/
def buildChannel (ops : List (ChannelOp H)) : Channel H := ops.foldl Channel.apply newChannel

end Pipeline

end Nrpc
