import HiddenLightning.Payments
import HiddenLightning.Coverage

/-! # Probes in flight

While `probeall` runs on the thread of the command line, another thread handles the events
of LDK.  The two meet at the lock of `pending_payments`: the campaign takes it to count the
pending payments before it goes on, and `probe` takes it to note a payment and holds it
while it sends; `PaymentFailed` takes it to remove a payment.

`Threads.Step` is the two threads with everything they do under the lock as a step of its
own.  Seen from the command line it is the campaign of `Campaign` (`Follows`), so nothing is
said here about another program.  Under the lock or not, the map is exactly what it should
be, and it never holds more than 31 payments unless it did so at the start
(`pending_tracked`).
-/
namespace HiddenLightning
open Numerals

variable {E : Secp256k1}

/-! ## The two threads -/

/-- A thread that can hold the lock. -/
inductive Owner where
  | cli
  | events
deriving DecidableEq

/-- A call of `probe` for a pair, with what is left to do after it, and the payment it has drawn. -/
structure ProbeCall where
  node : Text
  tx : Transaction
  txs : List Transaction
  nodes : List Text
  preimage : List UInt8
  hash : List UInt8

/-- What `probe` notes of its payment. -/
def ProbeCall.info (p : ProbeCall) : PaymentInfo :=
  { preimage := some p.preimage, secret := none, status := .pending, amtMsat := some 10000 }

/-- Where the call is in the loops. -/
def ProbeCall.pc (p : ProbeCall) : Pc := .probing p.node p.tx p.txs p.nodes

/-- Where the loops go on when it has succeeded. -/
def ProbeCall.next (p : ProbeCall) : Pc := .nextTx p.node p.txs p.nodes

variable (E) in
/-- A point of the command line's thread. -/
inductive Cli where
  /-- At a point of the loops. -/
  | loops (pc : Pc)
  /-- Counting the pending payments, with the lock held. -/
  | counting (node : Text) (tx : Transaction) (txs : List Transaction) (nodes : List Text)
  /-- The lock is dropped, and the number known. -/
  | counted (len : Nat) (node : Text) (tx : Transaction) (txs : List Transaction)
      (nodes : List Text)
  /-- In `probe`, before `find_routes`. -/
  | routing (p : ProbeCall)
  /-- With a route, waiting for the lock. -/
  | locking (p : ProbeCall) (route : Route E)
  /-- With the lock held. -/
  | locked (p : ProbeCall) (route : Route E)
  /-- In `send_payment`, with the payment noted. -/
  | sending (p : ProbeCall) (route : Route E)
  /-- `send_payment` has failed, and the payment is still noted. -/
  | refused (p : ProbeCall)
  /-- About to drop the lock and return. -/
  | returning (p : ProbeCall) (ok : Bool)

/-- A point of the event thread, in its handler of `PaymentFailed`. -/
inductive Handler where
  | idle
  /-- Waiting for the lock. -/
  | waiting (hash : List UInt8)
  /-- With the lock held. -/
  | locked (hash : List UInt8)
  /-- About to drop the lock. -/
  | leaving

variable (E) in
/-- The two threads and what they share.  The fields from `calls` on only keep a record: the
calls of `probe` that have returned, the map as it was when `probe` last took the lock, the
payments drawn, those sent, and the events that have arrived and been handled. -/
structure Threads where
  pendingPayments : PaymentInfoStorage
  lock : Option Owner
  running : Nat
  cli : Cli E
  handler : Handler
  calls : List Call
  before : PaymentInfoStorage
  drawn : List (List UInt8)
  sent : List (List UInt8)
  arrived : List (List UInt8)
  handled : List (List UInt8)

/-- The start of a campaign. -/
def Threads.start (c : Campaign) (initial : PaymentInfoStorage) (running : Nat) : Threads E where
  pendingPayments := initial
  lock := none
  running := running
  cli := .loops (.nextNode c.nodes)
  handler := .idle
  calls := []
  before := initial
  drawn := []
  sent := []
  arrived := []
  handled := []

/-- The points of the loops at which the lock is not needed and `probe` is not called. -/
def Pc.Free : Pc → Prop
  | .throttle .. => False
  | .probing .. => False
  | _ => True

/-- The call has drawn its payment and not begun to send it. -/
def Cli.unsent : Cli E → Option (List UInt8)
  | .routing p => some p.hash
  | .locking p _ => some p.hash
  | .locked p _ => some p.hash
  | _ => none

/-- **A step of one of the threads**, an event that arrives, or an interrupt.  Assumed of the
world outside: a payment hash that is drawn is new, and `PaymentFailed` does not arrive for a
hash before it is sent. -/
inductive Threads.Step (us : PublicKey E) (c : Campaign) (setOfAttempts : Text → Option Verdict)
    (initial : PaymentInfoStorage) : Threads E → Threads E → Prop
  | loop {w : Threads E} {pc : Pc} (m : Moment E) (moved : Moved) (hcli : w.cli = .loops pc)
      (hfree : pc.Free) (hrunning : m.running = w.running)
      (hstep : pc.step us c setOfAttempts m = some moved) :
      Step us c setOfAttempts initial w { w with cli := .loops moved.pc }
  | breakWait {w : Threads E} {node : Text} {tx : Transaction} {txs : List Transaction}
      {nodes : List Text} (hcli : w.cli = .loops (.throttle node tx txs nodes))
      (hrunning : 0 < w.running) :
      Step us c setOfAttempts initial w { w with cli := .loops (.signal node tx txs nodes) }
  | lockCount {w : Threads E} {node : Text} {tx : Transaction} {txs : List Transaction}
      {nodes : List Text} (hcli : w.cli = .loops (.throttle node tx txs nodes))
      (hrunning : w.running = 0) (hlock : w.lock = none) :
      Step us c setOfAttempts initial w
        { w with lock := some .cli, cli := .counting node tx txs nodes }
  | count {w : Threads E} {node : Text} {tx : Transaction} {txs : List Transaction}
      {nodes : List Text} (hcli : w.cli = .counting node tx txs nodes) :
      Step us c setOfAttempts initial w { w with
        lock := none
        cli := .counted w.pendingPayments.keys.length node tx txs nodes }
  | wait {w : Threads E} {len : Nat} {node : Text} {tx : Transaction} {txs : List Transaction}
      {nodes : List Text} (hcli : w.cli = .counted len node tx txs nodes) (hlen : 30 < len) :
      Step us c setOfAttempts initial w { w with cli := .loops (.throttle node tx txs nodes) }
  | go {w : Threads E} {len : Nat} {node : Text} {tx : Transaction} {txs : List Transaction}
      {nodes : List Text} (hcli : w.cli = .counted len node tx txs nodes) (hlen : len ≤ 30) :
      Step us c setOfAttempts initial w { w with cli := .loops (.signal node tx txs nodes) }
  | draw {w : Threads E} (p : ProbeCall) (hcli : w.cli = .loops p.pc)
      (hkey : (PublicKey.fromText E p.node).isSome) (hnew : p.hash ∉ w.drawn)
      (hinitial : p.hash ∉ initial) (harrived : p.hash ∉ w.arrived) :
      Step us c setOfAttempts initial w
        { w with cli := .routing p, drawn := p.hash :: w.drawn }
  | noRoute {w : Threads E} {p : ProbeCall} (router : Router E) (hcli : w.cli = .routing p)
      (hroute : probeRoute router p.node (decimal p.tx.scid.toNat) hardcodedGuess = none) :
      Step us c setOfAttempts initial w { w with
        cli := .loops p.pc
        calls := w.calls ++ [⟨p.node, p.tx.scid, false⟩] }
  | route {w : Threads E} {p : ProbeCall} (router : Router E) (route : Route E)
      (hcli : w.cli = .routing p)
      (hroute : probeRoute router p.node (decimal p.tx.scid.toNat) hardcodedGuess = some route) :
      Step us c setOfAttempts initial w { w with cli := .locking p route }
  | lockProbe {w : Threads E} {p : ProbeCall} {route : Route E} (hcli : w.cli = .locking p route)
      (hlock : w.lock = none) :
      Step us c setOfAttempts initial w { w with
        lock := some .cli
        cli := .locked p route
        before := w.pendingPayments }
  | insert {w : Threads E} {p : ProbeCall} {route : Route E} (hcli : w.cli = .locked p route) :
      Step us c setOfAttempts initial w { w with
        pendingPayments := w.pendingPayments.insert p.hash p.info
        cli := .sending p route }
  | accept {w : Threads E} {p : ProbeCall} {route : Route E}
      (sendAlongPath : List (RouteHop E) → PathResult) (hcli : w.cli = .sending p route)
      (hsend : sendPayment us sendAlongPath none route = .ok ()) :
      Step us c setOfAttempts initial w
        { w with cli := .returning p true, sent := p.hash :: w.sent }
  | refuse {w : Threads E} {p : ProbeCall} {route : Route E}
      (sendAlongPath : List (RouteHop E) → PathResult) (e : PaymentSendFailure)
      (hcli : w.cli = .sending p route)
      (hsend : sendPayment us sendAlongPath none route = .error e) :
      Step us c setOfAttempts initial w { w with cli := .refused p }
  | withdraw {w : Threads E} {p : ProbeCall} (hcli : w.cli = .refused p) :
      Step us c setOfAttempts initial w { w with
        pendingPayments := w.pendingPayments.erase p.hash
        cli := .returning p false }
  | finish {w : Threads E} {p : ProbeCall} {ok : Bool} (hcli : w.cli = .returning p ok) :
      Step us c setOfAttempts initial w { w with
        lock := none
        cli := .loops (if ok then p.next else p.pc)
        calls := w.calls ++ [⟨p.node, p.tx.scid, ok⟩] }
  | arrive {w : Threads E} (hash : List UInt8) (hhandler : w.handler = .idle)
      (hsent : w.cli.unsent ≠ some hash) :
      Step us c setOfAttempts initial w
        { w with handler := .waiting hash, arrived := hash :: w.arrived }
  | lockFailed {w : Threads E} {hash : List UInt8} (hhandler : w.handler = .waiting hash)
      (hlock : w.lock = none) :
      Step us c setOfAttempts initial w { w with lock := some .events, handler := .locked hash }
  | remove {w : Threads E} {hash : List UInt8} (hhandler : w.handler = .locked hash) :
      Step us c setOfAttempts initial w { w with
        pendingPayments := handlePaymentFailed hash w.pendingPayments
        handler := .leaving
        handled := hash :: w.handled }
  | unlock {w : Threads E} (hhandler : w.handler = .leaving) :
      Step us c setOfAttempts initial w { w with lock := none, handler := .idle }
  | interrupt {w : Threads E} :
      Step us c setOfAttempts initial w { w with running := w.running + 1 }

/-- A state of a campaign. -/
def Threads.Reachable (us : PublicKey E) (c : Campaign) (setOfAttempts : Text → Option Verdict)
    (initial : PaymentInfoStorage) (running : Nat) : Threads E → Prop :=
  Relation.ReflTransGen (Threads.Step us c setOfAttempts initial)
    (Threads.start c initial running)

variable {us : PublicKey E} {c : Campaign} {setOfAttempts : Text → Option Verdict}
  {initial : PaymentInfoStorage} {w w' : Threads E}

/-! ## The lock -/

/-- The command line's thread is where it holds the lock. -/
def Cli.Holds : Cli E → Prop
  | .counting .. => True
  | .locked .. => True
  | .sending .. => True
  | .refused .. => True
  | .returning .. => True
  | _ => False

/-- The event thread is where it holds the lock. -/
def Handler.Holds : Handler → Prop
  | .locked _ => True
  | .leaving => True
  | _ => False

/-- The lock is held by the thread that is where it holds it. -/
structure Threads.Exclusive (w : Threads E) : Prop where
  cli : w.lock = some .cli ↔ w.cli.Holds
  events : w.lock = some .events ↔ w.handler.Holds

theorem Threads.Exclusive.start (c : Campaign) (initial : PaymentInfoStorage) (running : Nat) :
    (Threads.start c initial running : Threads E).Exclusive :=
  ⟨⟨nofun, False.elim⟩, ⟨nofun, False.elim⟩⟩

/-- If the command line's thread holds the lock, the event thread is not inside its handler. -/
theorem Threads.Exclusive.not_handler (h : w.Exclusive) (hcli : w.cli.Holds) :
    ¬ w.handler.Holds := by
  intro hhandler
  have hmine := h.cli.mpr hcli
  rw [h.events.mpr hhandler] at hmine
  cases hmine

theorem Threads.Exclusive.free (h : w.Exclusive) (hlock : w.lock = none) :
    ¬ w.cli.Holds ∧ ¬ w.handler.Holds := by
  constructor
  · intro hcli
    rw [h.cli.mpr hcli] at hlock
    cases hlock
  · intro hhandler
    rw [h.events.mpr hhandler] at hlock
    cases hlock

/-- A step that takes no lock and moves between points that agree on holding it. -/
theorem Threads.Exclusive.congr (h : w.Exclusive) (hlock : w'.lock = w.lock)
    (hcli : w'.cli.Holds ↔ w.cli.Holds) (hhandler : w'.handler.Holds ↔ w.handler.Holds) :
    w'.Exclusive := by
  constructor
  · rw [hlock, hcli]
    exact h.cli
  · rw [hlock, hhandler]
    exact h.events

theorem Threads.Exclusive.step (h : w.Exclusive) (hstep : w.Step us c setOfAttempts initial w') :
    w'.Exclusive := by
  cases hstep with
  | loop _ _ hcli | breakWait hcli | wait hcli | go hcli | draw _ hcli | noRoute _ hcli
  | route _ _ hcli | insert hcli | accept _ hcli | refuse _ _ hcli | withdraw hcli =>
    exact h.congr rfl (by rw [hcli]; exact Iff.rfl) Iff.rfl
  | lockCount hcli _ hlock | lockProbe hcli hlock =>
    have hfree := (h.free hlock).2
    exact ⟨iff_of_true rfl trivial, iff_of_false nofun hfree⟩
  | count hcli | finish hcli =>
    have hfree := h.not_handler (by rw [hcli]; trivial)
    exact ⟨iff_of_false nofun id, iff_of_false nofun hfree⟩
  | arrive _ hhandler => exact h.congr rfl Iff.rfl (by rw [hhandler]; exact Iff.rfl)
  | lockFailed hhandler hlock =>
    have hfree := (h.free hlock).1
    exact ⟨iff_of_false nofun hfree, iff_of_true rfl trivial⟩
  | remove hhandler => exact h.congr rfl Iff.rfl (by rw [hhandler]; exact Iff.rfl)
  | unlock hhandler =>
    have hfree : ¬ w.cli.Holds := fun hcli => h.not_handler hcli (by rw [hhandler]; trivial)
    exact ⟨iff_of_false nofun hfree, iff_of_false nofun id⟩
  | interrupt => exact h.congr rfl Iff.rfl Iff.rfl

/-! ## The map -/

/-- The payment that is noted, but not known to be sent. -/
def Cli.noted : Cli E → Option (List UInt8)
  | .sending p _ => some p.hash
  | .refused p => some p.hash
  | _ => none

/-- The event the handler is at. -/
def Handler.event : Handler → Option (List UInt8)
  | .waiting hash => some hash
  | .locked hash => some hash
  | _ => none

/-- A payment that is to be in the map: it was there at the start, or was sent, and its failure
has not been handled. -/
def Threads.InFlight (initial : PaymentInfoStorage) (w : Threads E) (hash : List UInt8) : Prop :=
  (hash ∈ initial ∨ hash ∈ w.sent) ∧ hash ∉ w.handled

/-- **The map holds what is in flight**, and the payment that is being sent; and a payment is
neither in flight nor failed until it is sent. -/
structure Threads.Tracked (initial : PaymentInfoStorage) (w : Threads E) : Prop where
  mem_iff : ∀ hash, hash ∈ w.pendingPayments ↔ w.cli.noted = some hash ∨ w.InFlight initial hash
  unsent : ∀ hash, w.cli.unsent = some hash →
    hash ∉ initial ∧ hash ∉ w.sent ∧ hash ∉ w.arrived
  noted : ∀ hash, w.cli.noted = some hash →
    hash ∉ initial ∧ hash ∉ w.sent ∧ hash ∉ w.handled
  sent_drawn : ∀ hash ∈ w.sent, hash ∈ w.drawn
  unsent_drawn : ∀ hash, w.cli.unsent = some hash ∨ w.cli.noted = some hash → hash ∈ w.drawn
  handled_arrived : ∀ hash ∈ w.handled, hash ∈ w.arrived
  event_arrived : ∀ hash, w.handler.event = some hash → hash ∈ w.arrived

theorem Threads.Tracked.start (c : Campaign) (initial : PaymentInfoStorage) (running : Nat) :
    (Threads.start c initial running : Threads E).Tracked initial where
  mem_iff hash := by simp [Threads.start, Cli.noted, Threads.InFlight]
  unsent := nofun
  noted := nofun
  sent_drawn := nofun
  unsent_drawn := by simp [Threads.start, Cli.noted, Cli.unsent]
  handled_arrived := nofun
  event_arrived := nofun

/-- The command line's thread moves on, with nothing else that matters to the map. -/
theorem Threads.Tracked.moves (h : w.Tracked initial) (cli : Cli E) (lock : Option Owner)
    (running : Nat) (calls : List Call) (before : PaymentInfoStorage)
    (hnoted : cli.noted = w.cli.noted) (hunsent : ∀ hash, cli.unsent = some hash →
      w.cli.unsent = some hash) :
    Threads.Tracked initial { w with
      cli := cli, lock := lock, running := running, calls := calls, before := before } where
  mem_iff hash := by
    rw [hnoted]
    exact h.mem_iff hash
  unsent hash hhash := h.unsent hash (hunsent hash hhash)
  noted hash hhash := h.noted hash (hnoted ▸ hhash)
  sent_drawn := h.sent_drawn
  unsent_drawn hash hhash := by
    refine h.unsent_drawn hash (hhash.imp (hunsent hash) fun hnow => ?_)
    rw [← hnoted]
    exact hnow
  handled_arrived := h.handled_arrived
  event_arrived := h.event_arrived

theorem mem_handlePaymentFailed {hash hash' : List UInt8} {pending : PaymentInfoStorage} :
    hash' ∈ handlePaymentFailed hash pending ↔ hash' ≠ hash ∧ hash' ∈ pending := by
  rw [handlePaymentFailed]
  split
  · exact AList.mem_erase
  · rename_i habsent
    refine ⟨fun hmem => ⟨?_, hmem⟩, And.right⟩
    rintro rfl
    exact habsent hmem

/-- Where the command line's thread does not hold the lock, no payment is noted that is not
known to be sent. -/
theorem Cli.noted_of_not_holds {cli : Cli E} (h : ¬ cli.Holds) : cli.noted = none := by
  cases cli with
  | sending | refused => exact absurd trivial h
  | _ => rfl

/-- A payment that is not sent yet is not in the map. -/
theorem Threads.Tracked.notMem (h : w.Tracked initial) {hash : List UInt8}
    (hunsent : w.cli.unsent = some hash) : hash ∉ w.pendingPayments := by
  obtain ⟨hinitial, hsent, -⟩ := h.unsent hash hunsent
  have hnoted : w.cli.noted = none := by
    cases hcli : w.cli with
    | sending | refused =>
      rw [hcli] at hunsent
      cases hunsent
    | _ => rfl
  rw [h.mem_iff, hnoted]
  rintro (hnone | ⟨hold, -⟩)
  · cases hnone
  · exact hold.elim hinitial hsent

/-- `probe` draws a payment. -/
theorem Threads.Tracked.draw (h : w.Tracked initial) {p : ProbeCall}
    (hcli : w.cli = .loops p.pc) (hnew : p.hash ∉ w.drawn) (hinitial : p.hash ∉ initial)
    (harrived : p.hash ∉ w.arrived) :
    Threads.Tracked initial
      ({ w with cli := .routing p, drawn := p.hash :: w.drawn } : Threads E) where
  mem_iff hash := by
    have hmem := h.mem_iff hash
    rw [hcli] at hmem
    exact hmem
  unsent := by
    rintro _ ⟨⟩
    exact ⟨hinitial, fun hsent => hnew (h.sent_drawn _ hsent), harrived⟩
  noted := nofun
  sent_drawn hash hsent := List.mem_cons_of_mem _ (h.sent_drawn hash hsent)
  unsent_drawn := by
    rintro _ (⟨⟨⟩⟩ | ⟨⟨⟩⟩)
    exact List.mem_cons_self
  handled_arrived := h.handled_arrived
  event_arrived := h.event_arrived

/-- `probe` notes its payment. -/
theorem Threads.Tracked.insert (h : w.Tracked initial) {p : ProbeCall} {route : Route E}
    (hcli : w.cli = .locked p route) :
    Threads.Tracked initial { w with
      pendingPayments := w.pendingPayments.insert p.hash p.info
      cli := .sending p route } where
  mem_iff hash := by
    have hmem := h.mem_iff hash
    rw [hcli] at hmem
    rw [AList.mem_insert, hmem]
    simp [Cli.noted, Threads.InFlight, eq_comm]
  unsent := nofun
  noted := by
    rintro _ ⟨⟩
    obtain ⟨hinitial, hsent, harrived⟩ := h.unsent p.hash (by rw [hcli]; rfl)
    exact ⟨hinitial, hsent, fun hhandled => harrived (h.handled_arrived _ hhandled)⟩
  sent_drawn := h.sent_drawn
  unsent_drawn := by
    rintro _ (⟨⟨⟩⟩ | ⟨⟨⟩⟩)
    exact h.unsent_drawn p.hash (Or.inl (by rw [hcli]; rfl))
  handled_arrived := h.handled_arrived
  event_arrived := h.event_arrived

/-- The payment is sent. -/
theorem Threads.Tracked.accept (h : w.Tracked initial) {p : ProbeCall} {route : Route E}
    (hcli : w.cli = .sending p route) :
    Threads.Tracked initial
      ({ w with cli := .returning p true, sent := p.hash :: w.sent } : Threads E) where
  mem_iff hash := by
    have hmem := h.mem_iff hash
    have hfresh := (h.noted p.hash (by rw [hcli]; rfl)).2.2
    rw [hcli] at hmem
    rw [hmem]
    by_cases heq : hash = p.hash
    · subst heq
      simp [Cli.noted, Threads.InFlight, hfresh]
    · simp [Cli.noted, Threads.InFlight, heq, Ne.symm heq]
  unsent := nofun
  noted := nofun
  sent_drawn := by
    intro hash hsent
    rcases List.mem_cons.mp hsent with rfl | hsent
    · exact h.unsent_drawn p.hash (Or.inr (by rw [hcli]; rfl))
    · exact h.sent_drawn hash hsent
  unsent_drawn := by
    rintro _ (⟨⟨⟩⟩ | ⟨⟨⟩⟩)
  handled_arrived := h.handled_arrived
  event_arrived := h.event_arrived

/-- The payment could not be sent, and is removed. -/
theorem Threads.Tracked.withdraw (h : w.Tracked initial) {p : ProbeCall}
    (hcli : w.cli = .refused p) :
    Threads.Tracked initial ({ w with
      pendingPayments := w.pendingPayments.erase p.hash
      cli := .returning p false } : Threads E) where
  mem_iff hash := by
    have hmem := h.mem_iff hash
    obtain ⟨hinitial, hsent, -⟩ := h.noted p.hash (by rw [hcli]; rfl)
    rw [hcli] at hmem
    rw [AList.mem_erase, hmem]
    by_cases heq : hash = p.hash
    · subst heq
      simp [Cli.noted, Threads.InFlight, hinitial, hsent]
    · simp [Cli.noted, Threads.InFlight, heq, Ne.symm heq]
  unsent := nofun
  noted := nofun
  sent_drawn := h.sent_drawn
  unsent_drawn := by
    rintro _ (⟨⟨⟩⟩ | ⟨⟨⟩⟩)
  handled_arrived := h.handled_arrived
  event_arrived := h.event_arrived

/-- The handler removes a payment, while the command line's thread is not at the map. -/
theorem Threads.Tracked.remove (h : w.Tracked initial) (hcli : ¬ w.cli.Holds)
    {hash : List UInt8} (hhandler : w.handler = .locked hash) :
    Threads.Tracked initial { w with
      pendingPayments := handlePaymentFailed hash w.pendingPayments
      handler := .leaving
      handled := hash :: w.handled } where
  mem_iff hash' := by
    have hmem := h.mem_iff hash'
    rw [Cli.noted_of_not_holds hcli] at hmem ⊢
    rw [mem_handlePaymentFailed, hmem]
    by_cases heq : hash' = hash
    · simp [Threads.InFlight, heq]
    · simp [Threads.InFlight, heq]
  unsent := h.unsent
  noted hash' hnoted := by
    rw [Cli.noted_of_not_holds hcli] at hnoted
    cases hnoted
  sent_drawn := h.sent_drawn
  unsent_drawn := h.unsent_drawn
  handled_arrived := by
    intro hash' hhandled
    rcases List.mem_cons.mp hhandled with rfl | hhandled
    · exact h.event_arrived _ (by rw [hhandler]; rfl)
    · exact h.handled_arrived hash' hhandled
  event_arrived := nofun

theorem Threads.Tracked.step (h : w.Tracked initial) (hlock : w.Exclusive)
    (hstep : w.Step us c setOfAttempts initial w') : w'.Tracked initial := by
  cases hstep with
  | loop _ _ hcli | breakWait hcli | lockCount hcli | count hcli | wait hcli | go hcli
  | noRoute _ hcli | finish hcli =>
    exact h.moves _ _ _ _ _ (by rw [hcli]; rfl) nofun
  | route _ _ hcli | lockProbe hcli =>
    refine h.moves _ _ _ _ _ (by rw [hcli]; rfl) fun hash hunsent => ?_
    rw [hcli]
    exact hunsent
  | refuse _ _ hcli => exact h.moves _ _ _ _ _ (by rw [hcli]; rfl) nofun
  | interrupt => exact h.moves _ _ _ _ _ rfl fun _ hunsent => hunsent
  | draw p hcli _ hnew hinitial harrived => exact h.draw hcli hnew hinitial harrived
  | insert hcli => exact h.insert hcli
  | accept _ hcli _ => exact h.accept hcli
  | withdraw hcli => exact h.withdraw hcli
  | arrive hash hhandler hunsent =>
    refine { h with unsent := ?_, handled_arrived := ?_, event_arrived := ?_ }
    · intro hash' hhash'
      obtain ⟨hinitial, hsent, harrived⟩ := h.unsent hash' hhash'
      refine ⟨hinitial, hsent, fun hmem => ?_⟩
      rcases List.mem_cons.mp hmem with rfl | hmem
      · exact hunsent hhash'
      · exact harrived hmem
    · intro hash' hhandled
      exact List.mem_cons_of_mem _ (h.handled_arrived hash' hhandled)
    · rintro _ ⟨⟩
      exact List.mem_cons_self
  | lockFailed hhandler _ =>
    refine { h with event_arrived := ?_ }
    rintro _ ⟨⟩
    exact h.event_arrived _ (by rw [hhandler]; rfl)
  | remove hhandler =>
    have hcli : ¬ w.cli.Holds := fun hcli => hlock.not_handler hcli (by rw [hhandler]; trivial)
    exact h.remove hcli hhandler
  | unlock _ => exact { h with event_arrived := nofun }

/-! ## A probe that fails -/

/-- Under the lock, `probe` alone changes the map. -/
def Cli.Kept (before pending : PaymentInfoStorage) : Cli E → Prop
  | .locked _ _ => pending = before
  | .sending p _ => pending = before.insert p.hash p.info ∧ p.hash ∉ before
  | .refused p => pending = before.insert p.hash p.info ∧ p.hash ∉ before
  | .returning p true => pending = before.insert p.hash p.info
  | .returning _ false => pending = before
  | _ => True

theorem Cli.kept_of_not_holds {cli : Cli E} (h : ¬ cli.Holds) (before pending : PaymentInfoStorage) :
    cli.Kept before pending := by
  cases cli with
  | locked | sending | refused | returning => exact absurd trivial h
  | _ => trivial

theorem erase_insert_of_notMem {pending : PaymentInfoStorage} {hash : List UInt8}
    (h : hash ∉ pending) (info : PaymentInfo) : (pending.insert hash info).erase hash = pending := by
  apply AList.ext
  show ((pending.insert hash info).entries).kerase hash = pending.entries
  rw [AList.entries_insert_of_notMem h]
  exact List.kerase_cons_eq rfl

theorem Threads.kept_step (h : w.cli.Kept w.before w.pendingPayments)
    (hlock : w.Exclusive) (htracked : w.Tracked initial)
    (hstep : w.Step us c setOfAttempts initial w') :
    w'.cli.Kept w'.before w'.pendingPayments := by
  cases hstep with
  | loop | breakWait | lockCount | count | wait | go | draw | noRoute | route | finish => trivial
  | lockProbe => rfl
  | insert hcli =>
    rename_i p route
    rw [hcli] at h
    have hkept : w.pendingPayments = w.before := h
    have hnew : p.hash ∉ w.pendingPayments := htracked.notMem (by rw [hcli]; rfl)
    exact ⟨by rw [hkept], hkept ▸ hnew⟩
  | accept _ hcli _ =>
    rw [hcli] at h
    exact h.1
  | refuse _ _ hcli _ =>
    rw [hcli] at h
    exact h
  | withdraw hcli =>
    rw [hcli] at h
    obtain ⟨hkept, hnew⟩ := h
    show w.pendingPayments.erase _ = w.before
    rw [hkept, erase_insert_of_notMem hnew]
  | arrive | lockFailed | unlock | interrupt => exact h
  | remove hhandler =>
    have hcli : ¬ w.cli.Holds := fun hcli => hlock.not_handler hcli (by rw [hhandler]; trivial)
    exact Cli.kept_of_not_holds hcli _ _

/-! ## The bound -/

/-- How many payments there can be, by where the command line's thread is: 30 from the time
they were counted until the next is noted, and 31 after that. -/
def Cli.cap (running bound : Nat) : Cli E → Nat
  | .loops (.signal ..) => if running = 0 then 30 else bound
  | .loops (.probing ..) => 30
  | .counted len .. => len
  | .routing _ => 30
  | .locking _ _ => 30
  | .locked _ _ => 30
  | .sending _ _ => 31
  | .refused _ => 31
  | .returning _ ok => if ok then 31 else 30
  | _ => bound

/-- The bound, and what the present point adds to it. -/
structure Threads.Bounded (bound : Nat) (w : Threads E) : Prop where
  le_bound : w.pendingPayments.keys.length ≤ bound
  le_cap : w.pendingPayments.keys.length ≤ w.cli.cap w.running bound

theorem length_keys_insert {pending : PaymentInfoStorage} {hash : List UInt8}
    (h : hash ∉ pending) (info : PaymentInfo) :
    (pending.insert hash info).keys.length = pending.keys.length + 1 := by
  rw [AList.keys, AList.entries_insert_of_notMem h]
  rfl

theorem length_keys_handlePaymentFailed (hash : List UInt8) (pending : PaymentInfoStorage) :
    (handlePaymentFailed hash pending).keys.length ≤ pending.keys.length := by
  rw [handlePaymentFailed]
  split
  · show ((pending.entries.kerase hash).map Sigma.fst).length ≤ (pending.entries.map _).length
    rw [List.length_map, List.length_map]
    exact (List.kerase_sublist hash pending.entries).length_le
  · exact le_rfl

section
variable {bound : Nat}

/-- The loops go on from a point at which the lock is not needed. -/
theorem Threads.Bounded.loop (h : w.Bounded bound) {pc : Pc} (hcli : w.cli = .loops pc)
    (hfree : pc.Free) {m : Moment E} {moved : Moved} (hrunning : m.running = w.running)
    (hstep : pc.step us c setOfAttempts m = some moved) :
    Threads.Bounded bound ({ w with cli := .loops moved.pc } : Threads E) := by
  obtain ⟨hle, hcap⟩ := h
  refine ⟨hle, ?_⟩
  have hmove := Pc.step_move hstep
  rw [hcli] at hcap
  generalize moved.pc = pc', moved.call = call at hmove
  cases hmove with
  | begin node tx txs nodes hrunning' =>
    -- counted before, and not interrupted since
    have hzero : w.running = 0 := by omega
    rw [hzero] at hcap
    exact hcap
  | wait | go | sent | retry => exact hfree.elim
  | finish | route | noRoute | noTx | take | interrupted | skip | stay => exact hle

/-- `probe` notes its payment: one more than were counted. -/
theorem Threads.Bounded.insert (h : w.Bounded bound) (hbound : 31 ≤ bound) {p : ProbeCall}
    {route : Route E} (hcli : w.cli = .locked p route) (hnew : p.hash ∉ w.pendingPayments) :
    Threads.Bounded bound ({ w with
      pendingPayments := w.pendingPayments.insert p.hash p.info
      cli := .sending p route } : Threads E) := by
  have hcap := h.le_cap
  rw [hcli] at hcap
  have hshort : w.pendingPayments.keys.length ≤ 30 := hcap
  have hlen := length_keys_insert hnew p.info
  constructor
  · show (w.pendingPayments.insert p.hash p.info).keys.length ≤ bound
    omega
  · show (w.pendingPayments.insert p.hash p.info).keys.length ≤ 31
    omega

/-- The payment is removed again, and the map is as short as it was. -/
theorem Threads.Bounded.withdraw (h : w.Bounded bound) (hbound : 31 ≤ bound) {p : ProbeCall}
    (hcli : w.cli = .refused p) (hkept : w.cli.Kept w.before w.pendingPayments) :
    Threads.Bounded bound ({ w with
      pendingPayments := w.pendingPayments.erase p.hash
      cli := .returning p false } : Threads E) := by
  have hcap := h.le_cap
  rw [hcli] at hcap hkept
  obtain ⟨heq, hnew⟩ := hkept
  have hlen := length_keys_insert hnew p.info
  have hshort : w.pendingPayments.keys.length ≤ 31 := hcap
  rw [heq] at hshort
  have herase : w.pendingPayments.erase p.hash = w.before := by
    rw [heq, erase_insert_of_notMem hnew]
  constructor
  · show (w.pendingPayments.erase p.hash).keys.length ≤ bound
    rw [herase]
    omega
  · show (w.pendingPayments.erase p.hash).keys.length ≤ 30
    rw [herase]
    omega

/-- An interrupt lifts the limit where the loops would break off anyway. -/
theorem Threads.Bounded.interrupt (h : w.Bounded bound) :
    Threads.Bounded bound { w with running := w.running + 1 } := by
  obtain ⟨hle, hcap⟩ := h
  refine ⟨hle, ?_⟩
  cases hcli : w.cli with
  | loops pc =>
    cases pc with
    | signal =>
      show _ ≤ if w.running + 1 = 0 then 30 else bound
      rw [if_neg (by omega)]
      exact hle
    | _ =>
      rw [hcli] at hcap
      exact hcap
  | _ =>
    rw [hcli] at hcap
    exact hcap

theorem Threads.Bounded.step (h : w.Bounded bound) (hbound : 31 ≤ bound)
    (hkept : w.cli.Kept w.before w.pendingPayments) (htracked : w.Tracked initial)
    (hstep : w.Step us c setOfAttempts initial w') : w'.Bounded bound := by
  obtain ⟨hle, hcap⟩ := h
  cases hstep with
  | breakWait hcli hrunning =>
    refine ⟨hle, ?_⟩
    show _ ≤ if w.running = 0 then 30 else bound
    rw [if_neg (by omega)]
    exact hle
  | lockCount | wait => exact ⟨hle, hle⟩
  | count => exact ⟨hle, le_rfl⟩
  | go hcli hlen =>
    rw [hcli] at hcap
    refine ⟨hle, ?_⟩
    show _ ≤ if w.running = 0 then 30 else bound
    split
    · exact hcap.trans hlen
    · exact hle
  | draw p hcli | noRoute _ hcli | route _ _ hcli | lockProbe hcli | refuse _ _ hcli =>
    rw [hcli] at hcap
    exact ⟨hle, hcap⟩
  | loop m moved hcli hfree hrunning hstep =>
    exact Threads.Bounded.loop ⟨hle, hcap⟩ hcli hfree hrunning hstep
  | insert hcli =>
    exact Threads.Bounded.insert ⟨hle, hcap⟩ hbound hcli (htracked.notMem (by rw [hcli]; rfl))
  | accept _ hcli _ =>
    rw [hcli] at hcap
    exact ⟨hle, hcap⟩
  | withdraw hcli => exact Threads.Bounded.withdraw ⟨hle, hcap⟩ hbound hcli hkept
  | finish hcli =>
    rename_i p ok
    rw [hcli] at hcap
    refine ⟨hle, ?_⟩
    cases ok with
    | false => exact hcap
    | true => exact hle
  | arrive | lockFailed | unlock => exact ⟨hle, hcap⟩
  | remove hhandler =>
    rename_i hash
    have hlen := length_keys_handlePaymentFailed hash w.pendingPayments
    exact ⟨hlen.trans hle, hlen.trans hcap⟩
  | interrupt => exact Threads.Bounded.interrupt ⟨hle, hcap⟩

end

/-! ## The campaign, seen from the command line -/

/-- The point of the loops the thread is at. -/
def Cli.pc : Cli E → Pc
  | .loops pc => pc
  | .counting node tx txs nodes => .throttle node tx txs nodes
  | .counted _ node tx txs nodes => .throttle node tx txs nodes
  | .routing p => p.pc
  | .locking p _ => p.pc
  | .locked p _ => p.pc
  | .sending p _ => p.pc
  | .refused p => p.pc
  | .returning p _ => p.pc

/-- The call of `probe` for the pair can return so. -/
def ProbeCall.Returns (us : PublicKey E) (p : ProbeCall) : Bool → Prop
  | true => ∃ (m : Moment E) (pending : PaymentInfoStorage) (route : Route E),
      m.probe us p.node p.tx.scid = some (pending, .ok route)
  | false => ∃ (m : Moment E) (pending : PaymentInfoStorage) (e : ProbeError),
      m.probe us p.node p.tx.scid = some (pending, .error e)

/-- The route was found for the pair. -/
def ProbeCall.Found (p : ProbeCall) (route : Route E) : Prop :=
  ∃ router, probeRoute router p.node (decimal p.tx.scid.toNat) hardcodedGuess = some route

/-- What the thread knows at its point is what `probe` and the loops have found on the way. -/
def Cli.Backed (us : PublicKey E) : Cli E → Prop
  | .counting .. => True
  | .counted len .. => ∃ pending : PaymentInfoStorage, pending.keys.length = len
  | .routing p => (PublicKey.fromText E p.node).isSome
  | .locking p route => p.Found route
  | .locked p route => p.Found route
  | .sending p route => p.Found route
  | .refused p => p.Returns us false
  | .returning p ok => p.Returns us ok
  | .loops _ => True

theorem probe_of_probeRoute {router : Router E} {sendAlongPath : List (RouteHop E) → PathResult}
    {preimage hash : List UInt8} {pubkeyStr channelIdStr pubkeyGuess : Text}
    {pending : PaymentInfoStorage} {route : Route E}
    (h : probeRoute router pubkeyStr channelIdStr pubkeyGuess = some route) :
    ∃ pending', probe us router sendAlongPath preimage hash pubkeyStr channelIdStr pubkeyGuess
      pending = some (pending', match sendPayment us sendAlongPath none route with
        | .ok _ => .ok route
        | .error _ => .error .noRoute) := by
  obtain ⟨source, hsource, hrest⟩ := Option.bind_eq_some_iff.mp h
  obtain ⟨channelId, hchannel, hroute⟩ := Option.bind_eq_some_iff.mp hrest
  rw [probe, hsource, hchannel]
  simp only [hroute]
  cases sendPayment us sendAlongPath none route with
  | ok sent => exact ⟨_, rfl⟩
  | error e => exact ⟨_, rfl⟩

theorem probe_of_not_probeRoute {router : Router E}
    {sendAlongPath : List (RouteHop E) → PathResult} {preimage hash : List UInt8}
    {pubkeyStr channelIdStr pubkeyGuess : Text} {pending : PaymentInfoStorage}
    (hkey : (PublicKey.fromText E pubkeyStr).isSome)
    (h : probeRoute router pubkeyStr channelIdStr pubkeyGuess = none) :
    ∃ e, probe us router sendAlongPath preimage hash pubkeyStr channelIdStr pubkeyGuess pending =
      some (pending, .error e) := by
  obtain ⟨source, hsource⟩ := Option.isSome_iff_exists.mp hkey
  rw [probeRoute, hsource, Option.bind_some] at h
  rw [probe, hsource]
  cases hchannel : parseUnsigned maxU64 channelIdStr with
  | none => exact ⟨_, rfl⟩
  | some channelId =>
    rw [hchannel, Option.bind_some] at h
    simp only [h]
    exact ⟨_, rfl⟩

/-- The thread is at a point of a run of the loops, with the calls of `probe` made in it. -/
structure Threads.Follows (us : PublicKey E) (c : Campaign)
    (setOfAttempts : Text → Option Verdict) (w : Threads E) : Prop where
  backed : w.cli.Backed us
  run : ∃ ms, (Pc.nextNode c.nodes).run us c setOfAttempts ms = some (w.cli.pc, w.calls)

/-- A moment at which only the interrupts and the pending payments matter. -/
def Moment.quiet (running : Nat) (pendingPayments : PaymentInfoStorage) : Moment E where
  running := running
  pendingPayments := pendingPayments
  router _ _ := none
  sendAlongPath _ := .failed
  preimage := []
  hash := []

/-- The thread moves within one step of the loops. -/
theorem Threads.Follows.within (h : w.Follows us c setOfAttempts) (hpc : w'.cli.pc = w.cli.pc)
    (hcalls : w'.calls = w.calls) (hbacked : w'.cli.Backed us) : w'.Follows us c setOfAttempts := by
  refine ⟨hbacked, ?_⟩
  rw [hpc, hcalls]
  exact h.run

/-- The thread completes a step of the loops. -/
theorem Threads.Follows.advance (h : w.Follows us c setOfAttempts) {pc : Pc} {m : Moment E}
    {moved : Moved} (hpc : w.cli.pc = pc) (hstep : pc.step us c setOfAttempts m = some moved)
    (hcli : w'.cli = .loops moved.pc) (hcalls : w'.calls = w.calls ++ moved.call.toList) :
    w'.Follows us c setOfAttempts := by
  obtain ⟨ms, hrun⟩ := h.run
  refine ⟨by rw [hcli]; trivial, ms ++ [m], ?_⟩
  have hone : pc.run us c setOfAttempts [m] = some (moved.pc, moved.call.toList) := by
    rw [Pc.run, hstep, Option.bind_some, Pc.run]
    simp
  rw [Pc.run_append, hrun, hpc, Option.bind_some, hone, hcli, hcalls]
  rfl

/-- The thread completes a step in which `probe` is not called. -/
theorem Threads.Follows.advance_to (h : w.Follows us c setOfAttempts) {pc pc' : Pc}
    (m : Moment E) (hpc : w.cli.pc = pc) (hstep : pc.step us c setOfAttempts m = some (m.to pc'))
    (hcli : w'.cli = .loops pc') (hcalls : w'.calls = w.calls) :
    w'.Follows us c setOfAttempts :=
  h.advance hpc hstep hcli (hcalls.trans (List.append_nil _).symm)

/-- The thread comes back from `probe`. -/
theorem Threads.Follows.returns (h : w.Follows us c setOfAttempts) {p : ProbeCall} {ok : Bool}
    (hpc : w.cli.pc = p.pc) (hreturns : p.Returns us ok)
    (hcli : w'.cli = .loops (if ok then p.next else p.pc))
    (hcalls : w'.calls = w.calls ++ [⟨p.node, p.tx.scid, ok⟩]) : w'.Follows us c setOfAttempts := by
  cases ok with
  | true =>
    obtain ⟨m, pending, route, hprobe⟩ := hreturns
    rw [Moment.probe] at hprobe
    have hstep : p.pc.step us c setOfAttempts m =
        some ⟨p.next, pending, some ⟨p.node, p.tx.scid, true⟩⟩ := by
      rw [ProbeCall.pc, Pc.step, hprobe]
      rfl
    exact h.advance hpc hstep hcli hcalls
  | false =>
    obtain ⟨m, pending, e, hprobe⟩ := hreturns
    rw [Moment.probe] at hprobe
    have hstep : p.pc.step us c setOfAttempts m =
        some ⟨p.pc, pending, some ⟨p.node, p.tx.scid, false⟩⟩ := by
      rw [ProbeCall.pc, Pc.step, hprobe]
    exact h.advance hpc hstep hcli hcalls

theorem Threads.Follows.start (c : Campaign) (setOfAttempts : Text → Option Verdict)
    (initial : PaymentInfoStorage) (running : Nat) :
    (Threads.start c initial running).Follows us c setOfAttempts :=
  ⟨trivial, [], rfl⟩

/-- A step at a free point makes no call. -/
theorem Pc.Move.call_of_free {m : Moment E} {pc pc' : Pc} {call : Option Call}
    (h : Move c setOfAttempts m pc pc' call) (hfree : pc.Free) : call = none := by
  cases h with
  | sent | retry => exact hfree.elim
  | _ => rfl

/-- **The threads follow the loops.** -/
theorem Threads.Follows.step (h : w.Follows us c setOfAttempts)
    (hstep : w.Step us c setOfAttempts initial w') : w'.Follows us c setOfAttempts := by
  have hbacked := h.backed
  cases hstep with
  | loop m moved hcli hfree hrunning hstep =>
    refine h.advance (by rw [hcli]; rfl) hstep rfl ?_
    rw [(Pc.step_move hstep).call_of_free hfree]
    exact (List.append_nil _).symm
  | breakWait hcli hrunning =>
    rename_i node tx txs nodes
    have hpc : w.cli.pc = .throttle node tx txs nodes := by
      rw [hcli]
      rfl
    exact h.advance_to (.quiet w.running ∅) hpc (if_pos hrunning) rfl rfl
  | lockCount hcli => exact h.within (by rw [hcli]; rfl) rfl trivial
  | count hcli => exact h.within (by rw [hcli]; rfl) rfl ⟨_, rfl⟩
  | wait hcli hlen =>
    rename_i len node tx txs nodes
    have hpc : w.cli.pc = .throttle node tx txs nodes := by
      rw [hcli]
      rfl
    rw [hcli] at hbacked
    obtain ⟨pending, rfl⟩ := hbacked
    refine h.advance_to (.quiet 0 pending) hpc ?_ rfl rfl
    simp [Pc.step, Moment.quiet, hlen]
  | go hcli hlen =>
    rename_i len node tx txs nodes
    have hpc : w.cli.pc = .throttle node tx txs nodes := by
      rw [hcli]
      rfl
    rw [hcli] at hbacked
    obtain ⟨pending, rfl⟩ := hbacked
    refine h.advance_to (.quiet 0 pending) hpc ?_ rfl rfl
    simp [Pc.step, Moment.quiet, Nat.not_lt.mpr hlen]
  | draw p hcli hkey => exact h.within (by rw [hcli]; rfl) rfl hkey
  | noRoute router hcli hroute =>
    rename_i p
    rw [hcli] at hbacked
    obtain ⟨e, hprobe⟩ := probe_of_not_probeRoute hbacked hroute
    have hreturns : p.Returns us false :=
      ⟨{ (.quiet 0 ∅ : Moment E) with router := router }, _, e, hprobe⟩
    exact h.returns (by rw [hcli]; rfl) hreturns rfl rfl
  | route router route hcli hroute =>
    exact h.within (by rw [hcli]; rfl) rfl ⟨router, hroute⟩
  | lockProbe hcli | insert hcli =>
    rw [hcli] at hbacked
    exact h.within (by rw [hcli]; rfl) rfl hbacked
  | accept sendAlongPath hcli hsend =>
    rw [hcli] at hbacked
    obtain ⟨router, hroute⟩ := hbacked
    obtain ⟨pending, hprobe⟩ := probe_of_probeRoute hroute
    rw [hsend] at hprobe
    exact h.within (by rw [hcli]; rfl) rfl ⟨{ (.quiet 0 ∅ : Moment E) with
      router := router, sendAlongPath := sendAlongPath }, pending, _, hprobe⟩
  | refuse sendAlongPath e hcli hsend =>
    rw [hcli] at hbacked
    obtain ⟨router, hroute⟩ := hbacked
    obtain ⟨pending, hprobe⟩ := probe_of_probeRoute hroute
    rw [hsend] at hprobe
    exact h.within (by rw [hcli]; rfl) rfl ⟨{ (.quiet 0 ∅ : Moment E) with
      router := router, sendAlongPath := sendAlongPath }, pending, _, hprobe⟩
  | withdraw hcli =>
    rw [hcli] at hbacked
    exact h.within (by rw [hcli]; rfl) rfl hbacked
  | finish hcli =>
    rw [hcli] at hbacked
    exact h.returns (by rw [hcli]; rfl) hbacked rfl rfl
  | arrive | lockFailed | remove | unlock | interrupt => exact h.within rfl rfl hbacked

/-! ## Whole campaigns -/

/-- **What every state of a campaign satisfies.** -/
structure Threads.Sound (us : PublicKey E) (c : Campaign) (setOfAttempts : Text → Option Verdict)
    (initial : PaymentInfoStorage) (w : Threads E) : Prop where
  exclusive : w.Exclusive
  tracked : w.Tracked initial
  kept : w.cli.Kept w.before w.pendingPayments
  bounded : w.Bounded (max 31 initial.keys.length)
  follows : w.Follows us c setOfAttempts

theorem Threads.Sound.start (c : Campaign) (setOfAttempts : Text → Option Verdict)
    (initial : PaymentInfoStorage) (running : Nat) :
    (Threads.start c initial running).Sound us c setOfAttempts initial where
  exclusive := .start c initial running
  tracked := .start c initial running
  kept := trivial
  bounded := ⟨le_max_right _ _, le_max_right _ _⟩
  follows := .start c setOfAttempts initial running

theorem Threads.Sound.step (h : w.Sound us c setOfAttempts initial)
    (hstep : w.Step us c setOfAttempts initial w') : w'.Sound us c setOfAttempts initial where
  exclusive := h.exclusive.step hstep
  tracked := h.tracked.step h.exclusive hstep
  kept := Threads.kept_step h.kept h.exclusive h.tracked hstep
  bounded := h.bounded.step (le_max_left _ _) h.kept h.tracked hstep
  follows := h.follows.step hstep

theorem Threads.Reachable.sound {running : Nat}
    (h : w.Reachable us c setOfAttempts initial running) : w.Sound us c setOfAttempts initial := by
  induction h with
  | refl => exact .start c setOfAttempts initial running
  | tail _ hstep ih => exact ih.step hstep

/-- **Probes in flight are tracked exactly, and there are never too many.**  For every campaign
and every interleaving of its thread with the handler of `PaymentFailed`: while the lock is free
the map holds exactly what was there at the start or has been sent, less what has failed; a probe
that returns an error returns with the map as it was when it took the lock, if it did, and does
not change it as it returns; there are never more than 31 payments in the map, or as many as there
were at the start; and the calls of `probe` made are those of a run of the loops. -/
theorem pending_tracked (us : PublicKey E) (c : Campaign) (setOfAttempts : Text → Option Verdict)
    (initial : PaymentInfoStorage) (running : Nat) {w : Threads E}
    (h : w.Reachable us c setOfAttempts initial running) :
    (w.lock = none → ∀ hash, hash ∈ w.pendingPayments ↔
      (hash ∈ initial ∨ hash ∈ w.sent) ∧ hash ∉ w.handled) ∧
    (∀ w' : Threads E, w.Step us c setOfAttempts initial w' → ∀ call,
      w'.calls = w.calls ++ [call] → call.ok = false →
      w'.pendingPayments = w.pendingPayments ∧
        (w.lock = some .cli → w.pendingPayments = w.before)) ∧
    w.pendingPayments.keys.length ≤ max 31 initial.keys.length ∧
    ∃ ms, (Pc.nextNode c.nodes).run us c setOfAttempts ms = some (w.cli.pc, w.calls) := by
  have hsound := h.sound
  refine ⟨fun hlock hash => ?_, fun w' hstep call hcalls hfailed => ?_, hsound.bounded.le_bound,
    hsound.follows.run⟩
  · have hnoted := Cli.noted_of_not_holds (hsound.exclusive.free hlock).1
    rw [hsound.tracked.mem_iff, hnoted]
    exact ⟨fun hmem => hmem.resolve_left nofun, Or.inr⟩
  · have hkept := hsound.kept
    have hholds := hsound.exclusive.cli
    have hgrew : w'.calls ≠ w.calls := by
      rw [hcalls]
      simp
    cases hstep with
    | noRoute _ hcli _ =>
      rw [hcli] at hholds
      exact ⟨rfl, fun hlock => (hholds.mp hlock).elim⟩
    | finish hcli =>
      rename_i p ok
      have heq := List.append_cancel_left hcalls
      rw [List.singleton_inj] at heq
      rw [← heq] at hfailed
      have hfalse : ok = false := hfailed
      rw [hcli, hfalse] at hkept
      exact ⟨rfl, fun _ => hkept⟩
    | _ => exact absurd rfl hgrew

/-! ## Two probes and a failure -/

/-- From the next transaction to the check of the interrupt, when few payments are pending. -/
theorem Threads.steps_signal {node : Text} {tx : Transaction} {txs : List Transaction}
    {nodes : List Text} (hcli : w.cli = .loops (.nextTx node (tx :: txs) nodes))
    (hrunning : w.running = 0) (hlock : w.lock = none)
    (hfew : w.pendingPayments.keys.length ≤ 30) :
    Relation.ReflTransGen (Threads.Step us c setOfAttempts initial) w
      { w with lock := none, cli := .loops (.signal node tx txs nodes) } := by
  let m : Moment E := .quiet 0 ∅
  have htake : Threads.Step us c setOfAttempts initial w
      { w with cli := .loops (.throttle node tx txs nodes) } :=
    .loop m (m.to (.throttle node tx txs nodes)) hcli trivial hrunning.symm rfl
  have hcount : Threads.Step us c setOfAttempts initial
      { w with cli := .loops (.throttle node tx txs nodes) }
      { w with lock := some .cli, cli := .counting node tx txs nodes } :=
    .lockCount rfl hrunning hlock
  have hcounted : Threads.Step us c setOfAttempts initial
      { w with lock := some .cli, cli := .counting node tx txs nodes }
      { w with
        lock := none
        cli := .counted w.pendingPayments.keys.length node tx txs nodes } := .count rfl
  have hgo : Threads.Step us c setOfAttempts initial
      { w with
        lock := none
        cli := .counted w.pendingPayments.keys.length node tx txs nodes }
      { w with lock := none, cli := .loops (.signal node tx txs nodes) } := .go rfl hfew
  exact (((Relation.ReflTransGen.single htake).tail hcount).tail hcounted).tail hgo

/-- A transaction that is passed over. -/
theorem Threads.steps_skip {node : Text} {tx : Transaction} {txs : List Transaction}
    {nodes : List Text} (hcli : w.cli = .loops (.nextTx node (tx :: txs) nodes))
    (hrunning : w.running = 0) (hlock : w.lock = none)
    (hfew : w.pendingPayments.keys.length ≤ 30) (hskips : c.skips setOfAttempts node tx = true) :
    Relation.ReflTransGen (Threads.Step us c setOfAttempts initial) w
      { w with lock := none, cli := .loops (.nextTx node txs nodes) } := by
  let m : Moment E := .quiet 0 ∅
  have hquiet : ¬ 0 < m.running := Nat.lt_irrefl 0
  have hstep : (Pc.signal node tx txs nodes).step us c setOfAttempts m =
      some (m.to (.nextTx node txs nodes)) := by
    rw [Pc.step, if_neg hquiet, hskips, if_pos rfl]
  have hleave : Threads.Step us c setOfAttempts initial
      { w with lock := none, cli := .loops (.signal node tx txs nodes) }
      { w with lock := none, cli := .loops (.nextTx node txs nodes) } := by
    refine .loop m _ rfl (by trivial) ?_ hstep
    exact hrunning.symm
  exact (Threads.steps_signal hcli hrunning hlock hfew).tail hleave

/-- One that is not, up to the call of `probe`. -/
theorem Threads.steps_probing {p : ProbeCall}
    (hcli : w.cli = .loops (.nextTx p.node (p.tx :: p.txs) p.nodes)) (hrunning : w.running = 0)
    (hlock : w.lock = none) (hfew : w.pendingPayments.keys.length ≤ 30)
    (hskips : c.skips setOfAttempts p.node p.tx = false) :
    Relation.ReflTransGen (Threads.Step us c setOfAttempts initial) w
      { w with lock := none, cli := .loops p.pc } := by
  let m : Moment E := .quiet 0 ∅
  have hquiet : ¬ 0 < m.running := Nat.lt_irrefl 0
  have hstep : (Pc.signal p.node p.tx p.txs p.nodes).step us c setOfAttempts m =
      some (m.to p.pc) := by
    rw [Pc.step, if_neg hquiet, hskips, if_neg Bool.false_ne_true]
    rfl
  have hbegin : Threads.Step us c setOfAttempts initial
      { w with lock := none, cli := .loops (.signal p.node p.tx p.txs p.nodes) }
      { w with lock := none, cli := .loops p.pc } := by
    refine .loop m _ rfl (by trivial) ?_ hstep
    exact hrunning.symm
  exact (Threads.steps_signal hcli hrunning hlock hfew).tail hbegin

/-- The steps of a call of `probe` that succeeds. -/
theorem Threads.steps_sent {p : ProbeCall} {router : Router E}
    {sendAlongPath : List (RouteHop E) → PathResult} {route : Route E}
    (hcli : w.cli = .loops p.pc) (hlock : w.lock = none)
    (hkey : (PublicKey.fromText E p.node).isSome)
    (hprobe : probeRoute router p.node (decimal p.tx.scid.toNat) hardcodedGuess = some route)
    (hsend : sendPayment us sendAlongPath none route = .ok ()) (hnew : p.hash ∉ w.drawn)
    (hinitial : p.hash ∉ initial) (harrived : p.hash ∉ w.arrived) :
    Relation.ReflTransGen (Threads.Step us c setOfAttempts initial) w { w with
      pendingPayments := w.pendingPayments.insert p.hash p.info
      lock := none
      cli := .loops p.next
      calls := w.calls ++ [⟨p.node, p.tx.scid, true⟩]
      before := w.pendingPayments
      drawn := p.hash :: w.drawn
      sent := p.hash :: w.sent } := by
  have hdraw : Threads.Step us c setOfAttempts initial w
      { w with cli := .routing p, drawn := p.hash :: w.drawn } :=
    .draw p hcli hkey hnew hinitial harrived
  have hroute : Threads.Step us c setOfAttempts initial
      { w with cli := .routing p, drawn := p.hash :: w.drawn }
      { w with cli := .locking p route, drawn := p.hash :: w.drawn } :=
    .route router route rfl hprobe
  let locked : Threads E := { w with
    lock := some .cli
    cli := .locked p route
    before := w.pendingPayments
    drawn := p.hash :: w.drawn }
  have htake : Threads.Step us c setOfAttempts initial
      { w with cli := .locking p route, drawn := p.hash :: w.drawn } locked := .lockProbe rfl hlock
  let noted : Threads E := { locked with
    pendingPayments := w.pendingPayments.insert p.hash p.info
    cli := .sending p route }
  have hinsert : Threads.Step us c setOfAttempts initial locked noted := .insert rfl
  have haccept : Threads.Step us c setOfAttempts initial noted
      { noted with cli := .returning p true, sent := p.hash :: w.sent } :=
    .accept sendAlongPath rfl hsend
  have hfinish : Threads.Step us c setOfAttempts initial
      { noted with cli := .returning p true, sent := p.hash :: w.sent }
      { noted with
        lock := none
        cli := .loops p.next
        calls := w.calls ++ [⟨p.node, p.tx.scid, true⟩]
        sent := p.hash :: w.sent } :=
    .finish (show ({ noted with cli := .returning p true, sent := p.hash :: w.sent } :
      Threads E).cli = .returning p true from rfl)
  exact (((((Relation.ReflTransGen.single hdraw).tail hroute).tail htake).tail hinsert).tail
    haccept).tail hfinish

/-- The steps of the handler of `PaymentFailed`. -/
theorem Threads.steps_failed (hash : List UInt8) (hlock : w.lock = none)
    (hidle : w.handler = .idle) (hsent : w.cli.unsent ≠ some hash) :
    Relation.ReflTransGen (Threads.Step us c setOfAttempts initial) w { w with
      pendingPayments := handlePaymentFailed hash w.pendingPayments
      lock := none
      handler := .idle
      arrived := hash :: w.arrived
      handled := hash :: w.handled } := by
  have harrive : Threads.Step us c setOfAttempts initial w
      { w with handler := .waiting hash, arrived := hash :: w.arrived } := .arrive hash hidle hsent
  let locked : Threads E := { w with
    lock := some .events
    handler := .locked hash
    arrived := hash :: w.arrived }
  have htake : Threads.Step us c setOfAttempts initial
      { w with handler := .waiting hash, arrived := hash :: w.arrived } locked :=
    .lockFailed rfl hlock
  let removed : Threads E := { locked with
    pendingPayments := handlePaymentFailed hash w.pendingPayments
    handler := .leaving
    handled := hash :: w.handled }
  have hremove : Threads.Step us c setOfAttempts initial locked removed := .remove rfl
  exact (((Relation.ReflTransGen.single harrive).tail htake).tail hremove).tail (.unlock rfl)

/-- The probe of the newer output at node 1, and that of the older one, with their payments. -/
def newerCall : ProbeCall where
  node := firstKey.toText
  tx := newerTx
  txs := [changeTx, sampleTx]
  nodes := [secondKey.toText]
  preimage := []
  hash := [1]

def olderCall : ProbeCall where
  node := firstKey.toText
  tx := sampleTx
  txs := []
  nodes := [secondKey.toText]
  preimage := []
  hash := [2]

/-- `probe` finds a route from node 1 for any channel. -/
theorem probeRoute_sampleMoment (scid : UInt64) :
    probeRoute sampleMoment.router firstKey.toText (decimal scid.toNat) hardcodedGuess =
      some ⟨[samplePath]⟩ := by
  have hscid : scid.toNat ≤ maxU64 := Nat.le_of_lt_succ scid.toNat_lt
  rw [probeRoute, PublicKey.fromText_toText, parseUnsigned_decimal hscid, hardcodedGuess_eq,
    Option.bind_some, Option.bind_some, findRoutes, PublicKey.fromText_toText]
  rfl

/-- Both probes are sent.  Before the second is noted, the first fails, and so does a payment that
is no probe: the second alone is in flight. -/
theorem pending_tracked_wide : ∃ w : Threads sampleKeys,
    w.Reachable ourKey wideCampaign (getAttemptsStr []) ∅ 0 ∧ w.lock = none ∧
    w.sent = [[2], [1]] ∧ w.handled = [[9], [1]] ∧
    (∀ hash, hash ∈ w.pendingPayments ↔ hash = [2]) ∧ w.pendingPayments.keys.length ≤ 31 := by
  have hkey : (PublicKey.fromText sampleKeys firstKey.toText).isSome := by
    rw [PublicKey.fromText_toText]
    rfl
  have hsend : sendPayment ourKey sampleMoment.sendAlongPath none ⟨[samplePath]⟩ = .ok () := by
    simp [sendPayment, checkPath, samplePath, sampleMoment, firstKey_ne_ourKey]
  have hsorted : wideCampaign.sortedTxs = [newerTx, changeTx, sampleTx] :=
    wideCampaign.newestFirst_sortedTxs.eq_wide
  have hroute : findRoutes sampleMoment.router firstKey.toText [] = some ⟨[samplePath]⟩ := by
    rw [findRoutes, PublicKey.fromText_toText]
    rfl
  have hnode : (Pc.nextNode [firstKey.toText, secondKey.toText]).step ourKey wideCampaign
      (getAttemptsStr []) sampleMoment = some (sampleMoment.to
        (.nextTx firstKey.toText [newerTx, changeTx, sampleTx] [secondKey.toText])) := by
    rw [Pc.step, hroute, hsorted]
  have hnewer : wideCampaign.skips (getAttemptsStr []) firstKey.toText newerTx = false := by decide
  have hchange : wideCampaign.skips (getAttemptsStr []) firstKey.toText changeTx = true := by decide
  have holder : wideCampaign.skips (getAttemptsStr []) firstKey.toText sampleTx = false := by decide
  have hbegin : Threads.Step ourKey wideCampaign (getAttemptsStr []) ∅
      (Threads.start wideCampaign ∅ 0) _ := .loop sampleMoment _ rfl (by trivial) rfl hnode
  have hprobing := (Relation.ReflTransGen.single hbegin).trans
    (Threads.steps_probing (p := newerCall) rfl rfl rfl (Nat.zero_le 30) hnewer)
  have hsent := hprobing.trans (Threads.steps_sent (p := newerCall) rfl rfl hkey
    (probeRoute_sampleMoment _) hsend List.not_mem_nil (AList.notMem_empty _) List.not_mem_nil)
  have hskipped := hsent.trans (Threads.steps_skip rfl rfl rfl (by decide) hchange)
  have hagain := hskipped.trans
    (Threads.steps_probing (p := olderCall) rfl rfl rfl (by decide) holder)
  -- the event thread comes in before `probe` draws a payment
  have hfailed := hagain.trans (Threads.steps_failed [1] rfl rfl (Option.some_ne_none [1]).symm)
  have hother := hfailed.trans (Threads.steps_failed [9] rfl rfl (Option.some_ne_none [9]).symm)
  have hreached := hother.trans (Threads.steps_sent (p := olderCall) rfl rfl hkey
    (probeRoute_sampleMoment _) hsend (by decide) (AList.notMem_empty _) (by decide))
  obtain ⟨hmem, -, hlen, -⟩ :=
    pending_tracked ourKey wideCampaign (getAttemptsStr []) ∅ 0 hreached
  refine ⟨_, hreached, rfl, rfl, rfl, fun hash => ?_, hlen⟩
  rw [hmem rfl]
  simp only [newerCall, olderCall, Threads.start, AList.notMem_empty, false_or, List.mem_cons,
    List.not_mem_nil, or_false]
  constructor
  · rintro ⟨rfl | rfl, hnot⟩
    · rfl
    · exact absurd (Or.inr rfl) hnot
  · rintro rfl
    exact ⟨Or.inl rfl, by decide⟩

end HiddenLightning
