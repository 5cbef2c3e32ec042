import ExternalTrusty.Stored
import ExternalTrusty.MachineInt

namespace ExternalTrusty

open CMemory

/-- The objects of the program whose address is taken: locals, statics, heap blocks, and
buffers that belong to a caller. -/
inductive Obj
  | avbMsg
  | avbReq
  | avbResp
  | avbRespSize
  | kmSendHeader
  | kmRawHeader
  | kmDataHeader
  | kmRespHeader
  | kmVersionResp
  | kmRespSize
  | kmReq
  | hwbccReq
  | hwbccResp
  | reqMsg
  | reqBuf
  | readBuf
  | heap (n : Nat)
  | caller (n : Nat)
  deriving DecidableEq

/-- The pages shared with the secure side: a device's command buffer, and the buffer that
describes memory to be shared. Nothing but the device structures holds a pointer to them. -/
inductive Page
  | shared
  | tx
  deriving DecidableEq

/-- `struct trusty_ipc_iovec` -/
structure Iovec where
  base : Ptr Obj
  len : UInt64
  deriving DecidableEq

def Iovec.seg (v : Iovec) : Seg Obj := ⟨v.base, v.len.toNat⟩

def segs (iovs : List Iovec) : List (Seg Obj) := iovs.map Iovec.seg

/-- The components that own a channel of their own. -/
inductive Component
  | avb
  | km
  | hwbcc
  | proxy
  deriving DecidableEq

/-- Which `struct trusty_ipc_ops` a channel points to. -/
inductive Ops
  | sync
  | proxy
  deriving DecidableEq

/-- `struct trusty_ipc_chan`; there is one device, so `dev` is left out. -/
structure Chan where
  handle : UInt32
  complete : Int
  ops : Ops
  deriving DecidableEq

/-- The non-secure program: its objects, its channels, the `initialized` flags, and
whatever its surroundings `ε` consist of. -/
structure World (ε : Type) where
  mem : Mem Obj
  chans : Component → Chan
  initialized : Component → Bool
  env : ε

def trustyErrNone : Int := 0
def trustyErrGeneric : Int := -1
def trustyErrNotSupported : Int := -2
def trustyErrNoMemory : Int := -3
def trustyErrInvalidArgs : Int := -4
def trustyErrSecosErr : Int := -5
def trustyErrMsgTooBig : Int := -6
def trustyErrNoMsg : Int := -7
def trustyErrChannelClosed : Int := -8
def trustyErrSendBlocked : Int := -9

def pageSize : Nat := 4096

@[simp] theorem segs_nil : segs [] = [] := rfl

@[simp] theorem segs_cons (v : Iovec) (vs : List Iovec) : segs (v :: vs) = v.seg :: segs vs := rfl

@[simp] theorem Iovec.seg_base (v : Iovec) : v.seg.base = v.base := rfl

@[simp] theorem Iovec.seg_len (v : Iovec) : v.seg.len = v.len.toNat := rfl

end ExternalTrusty
