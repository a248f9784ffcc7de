import RoundRobin.Kernel.Basic

/-!
# The process layer

A kernel knows nothing of address spaces and user programs. A process layer that does is called at
three points, each call with the interrupt level noted in the history. The kernel's own state is
complete at every call, so a hook may ask it anything.
-/

namespace RoundRobin

/-- What a process layer does when the kernel calls it. -/
structure Hooks (C : Client) where
  activate : ThreadId → Act C Unit
  exit : ThreadId → Act C Unit
  isUser : ThreadId → Act C Bool

namespace Hooks

variable {C : Client}

/-- A process layer that does nothing and runs no user programs. -/
def plain : Hooks C where
  activate _ := pure ()
  exit _ := pure ()
  isUser _ := pure false

/-- Calls a hook if a process layer is installed. -/
def call {α : Type} (point : HookPoint) (id : ThreadId) (absent : α) (act : Act C α) : Act C α := do
  if (← get).hooked then
    Act.record (.hook point id (← Act.level))
    act
  else
    return absent

def callActivate (hooks : Hooks C) (id : ThreadId) : Act C Unit :=
  call .activate id () (hooks.activate id)

def callExit (hooks : Hooks C) (id : ThreadId) : Act C Unit := call .exit id () (hooks.exit id)

def callIsUser (hooks : Hooks C) (id : ThreadId) : Act C Bool :=
  call .isUser id false (hooks.isUser id)

end Hooks

end RoundRobin
