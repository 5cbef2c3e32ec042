import ExternalTrusty.RpmbRequest
import Mathlib.Data.List.Forall2

namespace ExternalTrusty

open CMemory

/-! What the storage proxy is for: it serves the secure side's requests, one after the other. -/

/-- What `rpmb_storage_send` is asked to do. -/
structure RpmbAsk where
  rel : Option (List UInt8)
  write : Option (List UInt8)
  readSize : Nat
  deriving DecidableEq

instance (p : List UInt8) : Decidable (RpmbValid p) := by
  unfold RpmbValid
  infer_instance

/-- The command in a message, if there is one that can be executed. -/
def rpmbAsk (msg : List UInt8) : Option RpmbAsk :=
  let p := msg.drop 24
  if leNat (msg.take 4) = storageRpmbSend ∧ RpmbValid p then
    some ⟨rpmbData p 16 (rpmbReliableSize p),
      rpmbData p (16 + rpmbReliableSize p) (rpmbWriteSize p), rpmbReadSize p⟩
  else none

/-- The result in the reply to a message without such a command. -/
def refusal (msg : List UInt8) : Nat :=
  if leNat (msg.take 4) = storageRpmbSend then storageErrNotValid else storageErrUnimplemented

/-- The reply to a message, by what came of its command. -/
def storageReply (msg : List UInt8) : Option (Int × List UInt8) → List UInt8
  | none => replyHeader msg (refusal msg)
  | some (rc, read) =>
    if rc = 0 then replyHeader msg storageNoError ++ read else replyHeader msg storageErrGeneric

/-- What happens between the proxy, its channel and the RPMB device. -/
inductive StorageEvent
  | received (handle : UInt32) (rc : Int) (msg : List UInt8)
  | executed (ask : RpmbAsk) (rc : Int) (read : List UInt8)
  | sent (handle : UInt32) (rc : Int) (msg : List UInt8)

/-- What is done about a message before it is answered, and what comes of it. -/
inductive Executed (msg : List UInt8) :
    List StorageEvent → Option (Int × List UInt8) → Prop
  | refused (no : rpmbAsk msg = none) : Executed msg [] none
  | done {ask : RpmbAsk} (asked : rpmbAsk msg = some ask) (rc : Int) (read : List UInt8)
    (size : read.length = ask.readSize) : Executed msg [.executed ask rc read] (some (rc, read))

/-- A message is taken from the channel, executed once if it can be, and answered once. The channel
is lost when the message cannot be read, or the reply cannot be sent. -/
inductive Served (k : UInt32) : List StorageEvent → UInt32 → Prop
  | unread {rc : Int} {msg : List UInt8} (short : rc < sizeofStorageMsg) :
    Served k [.received k rc msg] 0
  | answered {rc rc' : Int} {msg : List UInt8} {did : List StorageEvent}
    {outcome : Option (Int × List UInt8)} (length : rc = msg.length)
    (header : (sizeofStorageMsg : Int) ≤ rc) (executed : Executed msg did outcome) :
    Served k (.received k rc msg :: (did ++ [.sent k rc' (storageReply msg outcome)]))
      (if rc' < 0 then 0 else k)

/-- What a server does that got a channel with this handle, and the handle that it has left. -/
inductive Dialog (h : UInt32) : List StorageEvent → UInt32 → Prop
  | start : Dialog h [] h
  | served {t t' : List StorageEvent} {k k' : UInt32} (before : Dialog h t k)
    (now : Served k t' k') : Dialog h (t ++ t') k'
  | hungUp {t : List StorageEvent} {k : UInt32} (before : Dialog h t k) : Dialog h t 0

namespace StorageEvent

/-- The message of a receive that has brought all of a header. -/
def message : StorageEvent → Option (List UInt8)
  | .received _ rc msg => if (sizeofStorageMsg : Int) ≤ rc then some msg else none
  | _ => none

def ask : StorageEvent → Option RpmbAsk
  | .executed ask _ _ => some ask
  | _ => none

def reply : StorageEvent → Option (List UInt8)
  | .sent _ _ msg => some msg
  | _ => none

end StorageEvent

variable {k k' h : UInt32} {t : List StorageEvent}

/-- These are replies to these messages, one to each. -/
def Replies (msgs replies : List (List UInt8)) : Prop :=
  List.Forall₂ (fun msg reply => ∃ outcome, reply = storageReply msg outcome) msgs replies

/-- The RPMB device gets the commands of the messages that were read, and no others, each once and in
order; and each message gets one reply, in order. -/
structure Accounted (t : List StorageEvent) : Prop where
  asks : t.filterMap StorageEvent.ask = (t.filterMap StorageEvent.message).filterMap rpmbAsk
  replies : Replies (t.filterMap StorageEvent.message) (t.filterMap StorageEvent.reply)

theorem Accounted.append {t' : List StorageEvent} (ht : Accounted t) (ht' : Accounted t') :
    Accounted (t ++ t') where
  asks := by
    rw [List.filterMap_append, List.filterMap_append, List.filterMap_append, ht.asks, ht'.asks]
  replies := by
    rw [List.filterMap_append, List.filterMap_append]
    exact List.rel_append ht.replies ht'.replies

theorem Executed.accounted {msg : List UInt8} {did : List StorageEvent}
    {outcome : Option (Int × List UInt8)} (executed : Executed msg did outcome) :
    did.filterMap StorageEvent.ask = (rpmbAsk msg).toList ∧
      did.filterMap StorageEvent.message = [] ∧ did.filterMap StorageEvent.reply = [] := by
  cases executed with
  | refused no =>
    rw [no]
    exact ⟨rfl, rfl, rfl⟩
  | done asked =>
    rw [asked]
    exact ⟨rfl, rfl, rfl⟩

theorem Served.accounted (served : Served k t k') : Accounted t := by
  cases served with
  | @unread rc msg short =>
    have none : StorageEvent.message (.received k rc msg) = none := if_neg (not_le.mpr short)
    have messages : [StorageEvent.received k rc msg].filterMap StorageEvent.message = [] := by
      rw [List.filterMap_cons_none none, List.filterMap_nil]
    refine ⟨?_, ?_⟩
    · rw [messages]
      rfl
    · rw [messages]
      exact .nil
  | @answered rc rc' msg did outcome length header executed =>
    obtain ⟨asks, messages, replies⟩ := executed.accounted
    have read : StorageEvent.message (.received k rc msg) = some msg := if_pos header
    have taken : (StorageEvent.received k rc msg ::
        (did ++ [.sent k rc' (storageReply msg outcome)])).filterMap StorageEvent.message =
          [msg] := by
      rw [List.filterMap_cons_some read, List.filterMap_append, messages]
      rfl
    refine ⟨?_, ?_⟩
    · rw [taken, List.filterMap_cons_none rfl, List.filterMap_append, asks]
      cases asked : rpmbAsk msg with
      | none => simp [asked, StorageEvent.ask]
      | some ask => simp [asked, StorageEvent.ask]
    · rw [taken, List.filterMap_cons_none rfl, List.filterMap_append, replies]
      exact .cons ⟨outcome, rfl⟩ .nil

theorem Dialog.accounted (dialog : Dialog h t k) : Accounted t := by
  induction dialog with
  | start => exact ⟨rfl, .nil⟩
  | served _ now ih => exact ih.append now.accounted
  | hungUp _ ih => exact ih

end ExternalTrusty
