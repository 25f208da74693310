import HiddenLightning.Payments

/-! # How payments settle

`sendpayment` and `keysend` ask `InvoicePayer` to pay, and note the payment in
`outbound_payments` once it has answered.  The events of the payment come on another thread,
possibly before the note is made: `PaymentSent` completes a note that is there,
`PaymentFailed` does nothing to it.  So a payment that failed stays pending, and so does one
that arrived too soon (`settled_iff`).

The proof of a payment, its preimage, is recorded once the payment has succeeded, in
`outbound_payments` for the payments of the node and in `inbound_payments` for those it was
paid.  A later payment of the same invoice makes a new note in the old one's place, and the
proof is gone (`proofs_kept_iff`).
-/
namespace HiddenLightning

variable {E : Secp256k1}

/-! ## A command and its events -/

variable (E) in
/-- A command that pays and makes a note of it. -/
inductive PayCommand where
  | sendPayment (ldk : Ldk E) (invoice : Invoice E)
  | keysend (ldk : Ldk E) (hash : List UInt8) (payee : PublicKey E) (amtMsat : Nat)

/-- What is to be noted of a payment, with the answer of `InvoicePayer`. -/
structure Note where
  hash : List UInt8
  secret : Option (List UInt8)
  amtMsat : Option Nat
  result : Except PaymentError Unit

/-- The command up to the answer of `InvoicePayer`. -/
def PayCommand.pay (us : PublicKey E) (node : Payments E) : PayCommand E → Payments E × Note
  | .sendPayment ldk invoice =>
    let (cache, sent, result) := payInvoice us ldk invoice node.paymentCache
    ({ node with paymentCache := cache }.send invoice.paymentHash sent,
      ⟨invoice.paymentHash, some invoice.paymentSecret, invoice.amountMsat, result⟩)
  | .keysend ldk hash payee amtMsat =>
    let (cache, sent, result) := payPubkey us ldk payee hash node.paymentCache
    ({ node with paymentCache := cache }.send hash sent, ⟨hash, none, some amtMsat, result⟩)

/-- The rest of the command, with the map locked. -/
def Payments.note (node : Payments E) (n : Note) : Payments E :=
  { node with
    outboundPayments := noteOutbound n.hash n.secret n.amtMsat n.result node.outboundPayments }

/-- The command as one action. -/
def PayCommand.act : PayCommand E → Act E
  | .sendPayment ldk invoice => .sendPayment ldk invoice
  | .keysend ldk hash payee amtMsat => .keysend ldk hash payee amtMsat

/-- If nothing comes between its two parts, the command is the action of `Payments`. -/
theorem PayCommand.step_act (us : PublicKey E) (node : Payments E) (cmd : PayCommand E) :
    node.step us cmd.act = some ((cmd.pay us node).1.note (cmd.pay us node).2) := by
  cases cmd <;> rfl

/-- An event of LDK. -/
def Act.isEvent : Act E → Bool
  | .paymentPathFailed .. => true
  | .paymentFailed _ => true
  | .paymentSent _ _ => true
  | _ => false

variable (E) in
/-- The node, and the note that is still to be made. -/
structure Paying where
  node : Payments E
  command : Option Note

variable (E) in
/-- Which thread goes on: the command makes its note and returns, or an event is handled. -/
inductive Turn where
  | note
  | event (act : Act E)

/-- A turn.  Each handler holds the lock of the map it changes, so an event is one turn. -/
def Paying.step (us : PublicKey E) (p : Paying E) : Turn E → Option (Paying E)
  | .note => p.command.map fun n => ⟨p.node.note n, none⟩
  | .event act =>
    if act.isEvent then (p.node.step us act).map fun node => ⟨node, p.command⟩ else none

/-- Any number of turns. -/
def Paying.run (us : PublicKey E) (p : Paying E) (turns : List (Turn E)) : Option (Paying E) :=
  turns.foldlM (Paying.step us) p

/-- The event of the turn. -/
def Turn.act : Turn E → Option (Act E)
  | .note => none
  | .event act => some act

/-- The events handled. -/
def eventsOf (turns : List (Turn E)) : List (Act E) := turns.filterMap Turn.act

/-- The events handled after the note was made. -/
def handledAfter : List (Turn E) → List (Act E)
  | [] => []
  | .note :: turns => eventsOf turns
  | .event _ :: turns => handledAfter turns

/-- The event ends the payment. -/
def Act.terminal (hash : List UInt8) : Act E → Bool
  | .paymentFailed hash' => hash' = hash
  | .paymentSent _ hash' => hash' = hash
  | _ => false

/-- The map has an entry with the status, and the preimage if there is one. -/
def HasEntry (outbound : PaymentInfoStorage) (hash : List UInt8) (status : HTLCStatus)
    (preimage : Option (List UInt8)) : Prop :=
  ∃ info, outbound.lookup hash = some info ∧ info.status = status ∧ info.preimage = preimage

/-- The map shows how the payment ended. -/
def Settled (event : Act E) (hash : List UInt8) (outbound : PaymentInfoStorage) : Prop :=
  match event with
  | .paymentSent preimage _ => HasEntry outbound hash .succeeded (some preimage)
  | .paymentFailed _ => ∃ preimage, HasEntry outbound hash .failed preimage
  | _ => False

/-! ## What an event does to a note -/

/-- What an event makes of the entry for a hash. -/
def Act.entry (hash : List UInt8) (act : Act E) (entry : Option PaymentInfo) :
    Option PaymentInfo :=
  match act with
  | .paymentSent preimage hash' =>
    if hash' = hash then
      entry.map fun info => { info with preimage := some preimage, status := .succeeded }
    else entry
  | _ => entry

theorem lookup_handlePaymentSent (preimage hash hash' : List UInt8)
    (outbound : PaymentInfoStorage) :
    (handlePaymentSent preimage hash' outbound).lookup hash =
      if hash' = hash then
        (outbound.lookup hash).map fun info =>
          { info with preimage := some preimage, status := .succeeded }
      else outbound.lookup hash := by
  rw [handlePaymentSent]
  by_cases heq : hash' = hash
  · subst heq
    rw [if_pos rfl]
    cases hlookup : outbound.lookup hash' with
    | none => exact hlookup
    | some info => exact AList.lookup_insert _
  · rw [if_neg heq]
    cases outbound.lookup hash' with
    | none => rfl
    | some info => exact AList.lookup_insert_ne (Ne.symm heq)

theorem Payments.lookup_step {us : PublicKey E} {node node' : Payments E} {act : Act E}
    (hevent : act.isEvent) (h : node.step us act = some node') (hash : List UInt8) :
    node'.outboundPayments.lookup hash = act.entry hash (node.outboundPayments.lookup hash) := by
  cases act with
  | paymentPathFailed date info ev =>
    rw [Payments.step] at h
    split at h
    · dsimp only at h
      rw [invoicePayerPathFailed_snd, if_pos rfl] at h
      obtain ⟨attempts, -, rfl⟩ := Option.map_eq_some_iff.mp h
      rfl
    · cases h
  | paymentFailed hash' =>
    rw [Payments.step] at h
    split at h
    · cases h
      rfl
    · cases h
  | paymentSent preimage hash' =>
    rw [Payments.step] at h
    split at h
    · cases h
      exact lookup_handlePaymentSent preimage hash hash' node.outboundPayments
    · cases h
  | probe | sendFakePayment | sendPayment | keysend | restart => cases hevent

/-! ## Whole interleavings -/

section
variable {us : PublicKey E} {final : Paying E} {turns : List (Turn E)} {node : Payments E}

theorem Paying.run_cons (us : PublicKey E) (p : Paying E) (turn : Turn E)
    (turns : List (Turn E)) :
    p.run us (turn :: turns) = (p.step us turn).bind fun p' => p'.run us turns := rfl

/-- An event leaves the note that is still to be made alone. -/
theorem Paying.step_event {p p' : Paying E} {act : Act E}
    (h : p.step us (.event act) = some p') :
    act.isEvent ∧ p'.command = p.command ∧ p.node.step us act = some p'.node := by
  rw [Paying.step] at h
  split at h
  · rename_i hevent
    obtain ⟨node', hstep, rfl⟩ := Option.map_eq_some_iff.mp h
    exact ⟨hevent, rfl, hstep⟩
  · cases h

/-- After the note is made, the entry is what the events make of it. -/
theorem Paying.lookup_returned (h : Paying.run us ⟨node, none⟩ turns = some final)
    (hash : List UInt8) :
    final.node.outboundPayments.lookup hash =
      (eventsOf turns).foldl (fun entry act => act.entry hash entry)
        (node.outboundPayments.lookup hash) := by
  induction turns generalizing node with
  | nil =>
    cases h
    rfl
  | cons turn turns ih =>
    rw [Paying.run_cons] at h
    obtain ⟨⟨node', command⟩, hstep, hrest⟩ := Option.bind_eq_some_iff.mp h
    cases turn with
    | note => cases hstep
    | event act =>
      obtain ⟨hevent, hcommand, hact⟩ := Paying.step_event hstep
      have hnone : command = none := hcommand
      rw [hnone] at hrest
      rw [ih hrest, Payments.lookup_step hevent hact]
      rfl

/-- What came before the note makes no difference to the entry it leaves. -/
theorem Paying.lookup_run {n : Note} (h : Paying.run us ⟨node, some n⟩ turns = some final)
    (hreturned : final.command = none) (hash : List UInt8) :
    ∃ before : Payments E, final.node.outboundPayments.lookup hash =
      (handledAfter turns).foldl (fun entry act => act.entry hash entry)
        ((before.note n).outboundPayments.lookup hash) := by
  induction turns generalizing node with
  | nil =>
    cases h
    cases hreturned
  | cons turn turns ih =>
    rw [Paying.run_cons] at h
    obtain ⟨⟨node', command⟩, hstep, hrest⟩ := Option.bind_eq_some_iff.mp h
    cases turn with
    | note =>
      cases hstep
      exact ⟨node, Paying.lookup_returned hrest hash⟩
    | event act =>
      obtain ⟨-, hcommand, -⟩ := Paying.step_event hstep
      have hsame : command = some n := hcommand
      rw [hsame] at hrest
      exact ih hrest

/-- Only the events that end the payment matter to its entry. -/
theorem foldl_entry_filter (hash : List UInt8) (acts : List (Act E)) (entry : Option PaymentInfo) :
    acts.foldl (fun entry act => act.entry hash entry) entry =
      (acts.filter (Act.terminal hash)).foldl (fun entry act => act.entry hash entry) entry := by
  induction acts generalizing entry with
  | nil => rfl
  | cons act acts ih =>
    by_cases hterminal : act.terminal hash
    · rw [List.filter_cons_of_pos hterminal]
      exact ih _
    · rw [List.filter_cons_of_neg hterminal, List.foldl_cons, ih]
      congr 1
      cases act with
      | paymentSent preimage hash' => exact if_neg (by simpa [Act.terminal] using hterminal)
      | _ => rfl

theorem handledAfter_sublist (turns : List (Turn E)) :
    (handledAfter turns).Sublist (eventsOf turns) := by
  induction turns with
  | nil => exact List.Sublist.refl _
  | cons turn turns ih =>
    cases turn with
    | note => exact List.Sublist.refl _
    | event act => exact ih.cons act

theorem lookup_note {n : Note} (hok : n.result = .ok ()) (node : Payments E) :
    (node.note n).outboundPayments.lookup n.hash =
      some { preimage := none, secret := n.secret, status := .pending, amtMsat := n.amtMsat } := by
  show (noteOutbound n.hash n.secret n.amtMsat n.result node.outboundPayments).lookup n.hash = _
  rw [hok]
  exact AList.lookup_insert _

theorem HasEntry.status_eq {outbound : PaymentInfoStorage} {hash : List UInt8}
    {status : HTLCStatus} {preimage : Option (List UInt8)} {info : PaymentInfo}
    (h : HasEntry outbound hash status preimage) (hlookup : outbound.lookup hash = some info) :
    info.status = status := by
  obtain ⟨info', hinfo', hstatus, -⟩ := h
  rw [hlookup] at hinfo'
  cases hinfo'
  exact hstatus

/-- An entry that is still pending shows no end of the payment. -/
theorem not_settled_of_pending {outbound : PaymentInfoStorage} {hash : List UInt8}
    {info : PaymentInfo} (hlookup : outbound.lookup hash = some info)
    (hpending : info.status = .pending) (event : Act E) : ¬ Settled event hash outbound := by
  intro h
  cases event with
  | paymentSent preimage hash' =>
    have hstatus := HasEntry.status_eq h hlookup
    rw [hpending] at hstatus
    cases hstatus
  | paymentFailed hash' =>
    obtain ⟨preimage, hentry⟩ := h
    have hstatus := hentry.status_eq hlookup
    rw [hpending] at hstatus
    cases hstatus
  | probe | sendFakePayment | sendPayment | keysend | paymentPathFailed | restart => exact h

/-- **An outbound payment settles exactly if it succeeds, and not before its note is made.**  For
every interleaving of the command, once `InvoicePayer` has taken the payment on, with any
events: when the command has returned and the one event that ends the payment was handled, the
map shows how it ended exactly if the event is `PaymentSent` and was handled after the note was
made. -/
theorem settled_iff (us : PublicKey E) (node : Payments E) (cmd : PayCommand E)
    (hok : (cmd.pay us node).2.result = .ok ()) (turns : List (Turn E)) (final : Paying E)
    (hrun : Paying.run us ⟨(cmd.pay us node).1, some (cmd.pay us node).2⟩ turns = some final)
    (hreturned : final.command = none) (event : Act E)
    (hterminal : (eventsOf turns).filter (Act.terminal (cmd.pay us node).2.hash) = [event]) :
    Settled event (cmd.pay us node).2.hash final.node.outboundPayments ↔
      (∃ preimage, event = .paymentSent preimage (cmd.pay us node).2.hash) ∧
        event ∈ handledAfter turns := by
  generalize cmd.pay us node = paid at hok hrun hterminal ⊢
  obtain ⟨start, n⟩ := paid
  -- the entry is the note as it was made, changed by the terminal events handled since
  obtain ⟨before, hlookup⟩ := Paying.lookup_run hrun hreturned n.hash
  rw [foldl_entry_filter, lookup_note hok] at hlookup
  have hmem : event.terminal n.hash ∧ event ∈ eventsOf turns := by
    have := List.mem_singleton_self event
    rw [← hterminal, List.mem_filter] at this
    exact ⟨this.2, this.1⟩
  have hsub := (handledAfter_sublist turns).filter (Act.terminal n.hash)
  rw [hterminal] at hsub
  -- the event was handled after the note, or there is none after it
  by_cases hafter : event ∈ handledAfter turns
  · have hone : (handledAfter turns).filter (Act.terminal n.hash) = [event] :=
      hsub.eq_of_length_le (List.length_pos_of_mem (List.mem_filter.mpr ⟨hafter, hmem.1⟩))
    rw [hone] at hlookup
    cases event with
    | paymentSent preimage hash =>
      have hhash : hash = n.hash := by simpa [Act.terminal] using hmem.1
      subst hhash
      have hentry : final.node.outboundPayments.lookup n.hash = some
          { preimage := some preimage, secret := n.secret, status := .succeeded,
            amtMsat := n.amtMsat } := by
        rw [hlookup]
        exact if_pos rfl
      exact ⟨fun _ => ⟨⟨preimage, rfl⟩, hafter⟩, fun _ => ⟨_, hentry, rfl, rfl⟩⟩
    | paymentFailed hash =>
      exact ⟨fun hsettled => absurd hsettled (not_settled_of_pending hlookup rfl _),
        fun ⟨⟨_, hsent⟩, _⟩ => nomatch hsent⟩
    | probe | sendFakePayment | sendPayment | keysend | paymentPathFailed | restart =>
      exact absurd hmem.1 Bool.false_ne_true
  · have hnone : (handledAfter turns).filter (Act.terminal n.hash) = [] := by
      rw [List.filter_eq_nil_iff]
      intro act hact hact'
      have hmem' := hsub.subset (List.mem_filter.mpr ⟨hact, hact'⟩)
      rw [List.mem_singleton.mp hmem'] at hact
      exact hafter hact
    rw [hnone] at hlookup
    exact ⟨fun hsettled => absurd hsettled (not_settled_of_pending hlookup rfl _),
      fun hboth => absurd hboth.2 hafter⟩

end

/-! ## Two orders -/

/-- An invoice of node 2. -/
def sampleInvoice : Invoice sampleKeys where
  paymentHash := [7]
  paymentSecret := [8]
  payee := secondKey
  routeHints := []
  amountMsat := some 1000
  expired := false

/-- A payment over one path that is taken on. -/
theorem payInvoice_onePath {us : PublicKey sampleKeys} {path : List (RouteHop sampleKeys)}
    (hcheck : checkPath us path) {cache : PaymentCache}
    (hcache : sampleInvoice.paymentHash ∉ cache) :
    payInvoice us (onePath path) sampleInvoice cache =
      (cache.insert sampleInvoice.paymentHash 0, [path], .ok ()) := by
  have hsend : sendPayment us (onePath path).sendAlongPath (some sampleInvoice.paymentSecret)
      ⟨[path]⟩ = .ok () := by
    simp [sendPayment, onePath, hcheck]
  have hsent : sentPaths us (onePath path).sendAlongPath (some sampleInvoice.paymentSecret)
      ⟨[path]⟩ = [path] := by
    rw [sentPaths, hsend]
    simp [onePath]
  have hroute : (onePath path).router sampleInvoice.payee sampleInvoice.routeHints =
      some ⟨[path]⟩ := rfl
  rw [payInvoice, if_neg (by decide), payCached, if_neg hcache, payInternal,
    if_neg (by decide), hroute]
  simp only [hsend, hsent]

/-- `sendpayment` of the invoice. -/
def payInvoiceOnce : PayCommand sampleKeys := .sendPayment (onePath publicPath) sampleInvoice

/-- The invoice is paid, by a node that is not paying it already. -/
theorem pay_payInvoiceOnce_of_notMem {node : Payments sampleKeys}
    (hcache : sampleInvoice.paymentHash ∉ node.paymentCache) :
    payInvoiceOnce.pay ourKey node =
      ({ node with paymentCache := node.paymentCache.insert [7] 0 }.send [7] [publicPath],
        ⟨[7], some [8], some 1000, .ok ()⟩) := by
  have hpay := payInvoice_onePath checkPath_publicPath hcache
  rw [payInvoiceOnce, PayCommand.pay, hpay]
  rfl

theorem pay_payInvoiceOnce : payInvoiceOnce.pay ourKey (Payments.start []) =
    ({ (Payments.start [] : Payments sampleKeys) with
        paymentCache := (∅ : PaymentCache).insert [7] 0 }.send [7] [publicPath],
      ⟨[7], some [8], some 1000, .ok ()⟩) :=
  pay_payInvoiceOnce_of_notMem (AList.notMem_empty _)

/-- An event of a payment that was sent is handled. -/
theorem Payments.exists_step_terminal (us : PublicKey E) {node : Payments E}
    {path : List (RouteHop E)} {hash : List UInt8} (hsent : (hash, path) ∈ node.sent) {act : Act E}
    (hterminal : act.terminal hash) : act.isEvent ∧ ∃ node', node.step us act = some node' := by
  have hany : ∃ sent ∈ node.sent, sent.1 = hash := ⟨_, hsent, rfl⟩
  cases act with
  | paymentSent preimage hash' =>
    obtain rfl : hash' = hash := by simpa [Act.terminal] using hterminal
    exact ⟨rfl, _, if_pos hany⟩
  | paymentFailed hash' =>
    obtain rfl : hash' = hash := by simpa [Act.terminal] using hterminal
    exact ⟨rfl, _, if_pos hany⟩
  | probe | sendFakePayment | sendPayment | keysend | paymentPathFailed | restart =>
    cases hterminal

/-- The note, and then the event. -/
theorem Paying.exists_run_note_event (us : PublicKey E) {node : Payments E} {n : Note}
    {path : List (RouteHop E)} (hsent : (n.hash, path) ∈ node.sent) {act : Act E}
    (hterminal : act.terminal n.hash) : ∃ final,
      Paying.run us ⟨node, some n⟩ [.note, .event act] = some final ∧ final.command = none := by
  have hsent' : (n.hash, path) ∈ (node.note n).sent := hsent
  obtain ⟨hevent, node', hstep⟩ := Payments.exists_step_terminal us hsent' hterminal
  refine ⟨⟨node', none⟩, ?_, rfl⟩
  rw [Paying.run_cons]
  show Option.bind (if act.isEvent then _ else none) _ = _
  rw [if_pos hevent, hstep]
  rfl

/-- The event, and then the note. -/
theorem Paying.exists_run_event_note (us : PublicKey E) {node : Payments E} {n : Note}
    {path : List (RouteHop E)} (hsent : (n.hash, path) ∈ node.sent) {act : Act E}
    (hterminal : act.terminal n.hash) : ∃ final,
      Paying.run us ⟨node, some n⟩ [.event act, .note] = some final ∧ final.command = none := by
  obtain ⟨hevent, node', hstep⟩ := Payments.exists_step_terminal us hsent hterminal
  refine ⟨⟨node'.note n, none⟩, ?_, rfl⟩
  rw [Paying.run_cons]
  show Option.bind (if act.isEvent then _ else none) _ = _
  rw [if_pos hevent, hstep]
  rfl

theorem sent_payInvoiceOnce : ((payInvoiceOnce.pay ourKey (Payments.start [])).2.hash, publicPath) ∈
    (payInvoiceOnce.pay ourKey (Payments.start [])).1.sent := by
  rw [pay_payInvoiceOnce]
  exact List.mem_singleton_self _

theorem terminal_payInvoiceOnce : (Act.paymentFailed [7] : Act sampleKeys).terminal
      (payInvoiceOnce.pay ourKey (Payments.start [])).2.hash ∧
    (Act.paymentSent [9] [7] : Act sampleKeys).terminal
      (payInvoiceOnce.pay ourKey (Payments.start [])).2.hash := by
  rw [pay_payInvoiceOnce]
  exact ⟨rfl, rfl⟩

/-- The payment succeeds after its note is made. -/
theorem settled_after_note : ∃ final,
    Paying.run ourKey ⟨(payInvoiceOnce.pay ourKey (Payments.start [])).1,
        some (payInvoiceOnce.pay ourKey (Payments.start [])).2⟩
      [.note, .event (.paymentSent [9] [7])] = some final ∧
    Settled (.paymentSent [9] [7] : Act sampleKeys)
      (payInvoiceOnce.pay ourKey (Payments.start [])).2.hash final.node.outboundPayments := by
  obtain ⟨final, hrun, hreturned⟩ :=
    Paying.exists_run_note_event ourKey sent_payInvoiceOnce terminal_payInvoiceOnce.2
  refine ⟨final, hrun, (settled_iff ourKey (Payments.start []) payInvoiceOnce ?_ _ final hrun
    hreturned (.paymentSent [9] [7]) ?_).mpr ⟨⟨[9], ?_⟩, List.mem_singleton_self _⟩⟩
  · rw [pay_payInvoiceOnce]
  · exact List.filter_cons_of_pos terminal_payInvoiceOnce.2
  · rw [pay_payInvoiceOnce]

/-- A payment that fails stays pending, and so does one that succeeds before its note is made. -/
theorem left_pending :
    (∃ final, Paying.run ourKey ⟨(payInvoiceOnce.pay ourKey (Payments.start [])).1,
        some (payInvoiceOnce.pay ourKey (Payments.start [])).2⟩
        [.note, .event (.paymentFailed [7])] = some final ∧ final.command = none ∧
      ¬ Settled (.paymentFailed [7] : Act sampleKeys)
        (payInvoiceOnce.pay ourKey (Payments.start [])).2.hash final.node.outboundPayments) ∧
    ∃ final, Paying.run ourKey ⟨(payInvoiceOnce.pay ourKey (Payments.start [])).1,
        some (payInvoiceOnce.pay ourKey (Payments.start [])).2⟩
        [.event (.paymentSent [9] [7]), .note] = some final ∧ final.command = none ∧
      ¬ Settled (.paymentSent [9] [7] : Act sampleKeys)
        (payInvoiceOnce.pay ourKey (Payments.start [])).2.hash final.node.outboundPayments := by
  have hok : (payInvoiceOnce.pay ourKey (Payments.start [])).2.result = .ok () := by
    rw [pay_payInvoiceOnce]
  constructor
  · obtain ⟨final, hrun, hreturned⟩ :=
      Paying.exists_run_note_event ourKey sent_payInvoiceOnce terminal_payInvoiceOnce.1
    obtain ⟨before, hlookup⟩ := Paying.lookup_run hrun hreturned _
    rw [lookup_note hok] at hlookup
    exact ⟨final, hrun, hreturned, not_settled_of_pending hlookup rfl _⟩
  · obtain ⟨final, hrun, hreturned⟩ :=
      Paying.exists_run_event_note ourKey sent_payInvoiceOnce terminal_payInvoiceOnce.2
    obtain ⟨before, hlookup⟩ := Paying.lookup_run hrun hreturned _
    rw [lookup_note hok] at hlookup
    exact ⟨final, hrun, hreturned, not_settled_of_pending hlookup rfl _⟩

/-! ## Proofs of payment -/

/-- `get_invoice`; `created` is the payment hash and secret of the invoice, if one was created. -/
def getInvoice (amtMsat : Nat) (created : Option (List UInt8 × List UInt8))
    (inbound : PaymentInfoStorage) : PaymentInfoStorage :=
  match created with
  | none => inbound
  | some (hash, secret) => inbound.insert hash
      { preimage := none, secret := some secret, status := .pending, amtMsat := some amtMsat }

/-- `handle_ldk_events` on `PaymentClaimed`. -/
def handlePaymentClaimed (hash : List UInt8) (preimage secret : Option (List UInt8))
    (amountMsat : Nat) (inbound : PaymentInfoStorage) : PaymentInfoStorage :=
  match inbound.lookup hash with
  -- the amount of the invoice stays
  | some info => inbound.insert hash
      { info with status := .succeeded, preimage := preimage, secret := secret }
  | none => inbound.insert hash
      { preimage := preimage, secret := secret, status := .succeeded, amtMsat := some amountMsat }

variable (E) in
/-- The node, with the note still to be made and the payments it was paid. -/
structure Ledger where
  paying : Paying E
  inboundPayments : PaymentInfoStorage

/-- `outbound_payments`. -/
def Ledger.outboundPayments (l : Ledger E) : PaymentInfoStorage := l.paying.node.outboundPayments

variable (E) in
/-- A part of a command, or an event: `pay` is `sendpayment` or `keysend` up to the answer of
`InvoicePayer`, and the turn that notes it is the rest. -/
inductive LedgerAct where
  | pay (cmd : PayCommand E)
  | turn (turn : Turn E)
  | probing (act : Act E)
  | getInvoice (amtMsat : Nat) (created : Option (List UInt8 × List UInt8))
  | paymentClaimed (hash : List UInt8) (preimage secret : Option (List UInt8)) (amountMsat : Nat)

/-- A process that has just begun. -/
def Ledger.start (attempts : List Attempt) : Ledger E := ⟨⟨Payments.start attempts, none⟩, ∅⟩

/-- A command that sends probes, real or fake. -/
def Act.isProbing : Act E → Bool
  | .probe .. => true
  | .sendFakePayment .. => true
  | _ => false

/-- One part of a command, or an event, of one process.  The thread of the commands is one: none
begins before the one before has returned. -/
def Ledger.step (us : PublicKey E) (l : Ledger E) : LedgerAct E → Option (Ledger E)
  | .pay cmd =>
    if l.paying.command.isNone then
      let (node, n) := cmd.pay us l.paying.node
      some { l with paying := ⟨node, some n⟩ }
    else none
  | .turn turn => (l.paying.step us turn).map fun paying => { l with paying := paying }
  | .probing act =>
    if act.isProbing ∧ l.paying.command.isNone then
      (l.paying.node.step us act).map fun node => { l with paying := ⟨node, none⟩ }
    else none
  | .getInvoice amtMsat created =>
    if l.paying.command.isNone then
      some { l with inboundPayments := HiddenLightning.getInvoice amtMsat created l.inboundPayments }
    else none
  | .paymentClaimed hash preimage secret amountMsat =>
    some { l with inboundPayments :=
      handlePaymentClaimed hash preimage secret amountMsat l.inboundPayments }

/-- Any number of parts of commands and events. -/
def Ledger.run (us : PublicKey E) (l : Ledger E) (acts : List (LedgerAct E)) :
    Option (Ledger E) :=
  acts.foldlM (Ledger.step us) l

theorem Ledger.run_append (us : PublicKey E) (l : Ledger E) (acts acts' : List (LedgerAct E)) :
    l.run us (acts ++ acts') = (l.run us acts).bind fun mid => mid.run us acts' :=
  List.foldlM_append ..

theorem Ledger.run_cons (us : PublicKey E) (l : Ledger E) (act : LedgerAct E)
    (acts : List (LedgerAct E)) :
    l.run us (act :: acts) = (l.step us act).bind fun mid => mid.run us acts := rfl

/-- The payment has succeeded, with the preimage for a proof. -/
def Recorded (payments : PaymentInfoStorage) (hash preimage : List UInt8) : Prop :=
  HasEntry payments hash .succeeded (some preimage)

/-- A later ledger has the proofs of an earlier one. -/
structure Ledger.Keeps (l l' : Ledger E) : Prop where
  outbound : ∀ hash preimage, Recorded l.outboundPayments hash preimage →
    Recorded l'.outboundPayments hash preimage
  inbound : ∀ hash preimage, Recorded l.inboundPayments hash preimage →
    Recorded l'.inboundPayments hash preimage

/-- **No proof is lost in the run**: what one of its states has, every later one has. -/
def KeepsProofs (us : PublicKey E) (l : Ledger E) (acts : List (LedgerAct E)) : Prop :=
  ∀ before between after mid later, acts = before ++ (between ++ after) →
    l.run us before = some mid → mid.run us between = some later → mid.Keeps later

/-- The answer of `InvoicePayer` is one that `send_payment` and `keysend` make a note of. -/
def Noted : Except PaymentError Unit → Prop
  | .ok _ => True
  | .error (.sending _) => True
  | _ => False

/-- A note is made in the place of one that has a proof. -/
def Ledger.Overwrites (l : Ledger E) : LedgerAct E → Prop
  | .turn .note => ∃ n ∈ l.paying.command, Noted n.result ∧
      ∃ preimage, Recorded l.outboundPayments n.hash preimage
  | .getInvoice _ (some (hash, _)) => ∃ preimage, Recorded l.inboundPayments hash preimage
  | _ => False

/-- No command of the run makes a note in the place of one that has a proof. -/
def NeverOverwrites (us : PublicKey E) (l : Ledger E) (acts : List (LedgerAct E)) : Prop :=
  ∀ before act after mid, acts = before ++ act :: after → l.run us before = some mid →
    ¬ mid.Overwrites act

/-- **What is assumed of LDK**: the preimage in an event is the one of its payment hash, and an
event about a payment that was claimed has it. -/
def LedgerAct.Genuine (preimageOf : List UInt8 → List UInt8) : LedgerAct E → Prop
  | .turn (.event (.paymentSent preimage hash)) => preimage = preimageOf hash
  | .paymentClaimed hash preimage _ _ => preimage = some (preimageOf hash)
  | _ => True

theorem lookup_noteOutbound (hash hash' : List UInt8) (secret : Option (List UInt8))
    (amtMsat : Option Nat) (result : Except PaymentError Unit) (outbound : PaymentInfoStorage) :
    (Noted result ∧ hash' = hash ∧ ∃ info, info.preimage = none ∧
      (noteOutbound hash' secret amtMsat result outbound).lookup hash = some info) ∨
    (¬ (Noted result ∧ hash' = hash) ∧
      (noteOutbound hash' secret amtMsat result outbound).lookup hash = outbound.lookup hash) := by
  rcases result with (_ | _ | e) | _
  · exact Or.inr ⟨fun h => h.1, rfl⟩
  · exact Or.inr ⟨fun h => h.1, rfl⟩
  all_goals
    by_cases heq : hash' = hash
    · subst heq
      exact Or.inl ⟨trivial, rfl, _, rfl, AList.lookup_insert _⟩
    · exact Or.inr ⟨fun h => heq h.2, AList.lookup_insert_ne (Ne.symm heq)⟩

section
variable {us : PublicKey E} {l l' : Ledger E} {act : LedgerAct E}

/-- What an action does to an entry of `outbound_payments`: nothing, a new note, or the end of the
payment. -/
theorem Ledger.lookup_outbound (h : l.step us act = some l') (hash : List UInt8) :
    l'.outboundPayments.lookup hash = l.outboundPayments.lookup hash ∨
    (∃ n, act = .turn .note ∧ l.paying.command = some n ∧ Noted n.result ∧ n.hash = hash ∧
      ∃ info, info.preimage = none ∧ l'.outboundPayments.lookup hash = some info) ∨
    ∃ preimage, act = .turn (.event (.paymentSent preimage hash)) ∧
      l'.outboundPayments.lookup hash = (l.outboundPayments.lookup hash).map fun info =>
        { info with preimage := some preimage, status := .succeeded } := by
  cases act with
  | pay cmd =>
    rw [Ledger.step] at h
    split at h
    · obtain rfl := Option.some.inj h
      cases cmd <;> exact Or.inl rfl
    · cases h
  | turn turn =>
    obtain ⟨paying, hturn, rfl⟩ := Option.map_eq_some_iff.mp h
    cases turn with
    | note =>
      obtain ⟨n, hn, rfl⟩ := Option.map_eq_some_iff.mp hturn
      obtain ⟨hnoted, hhash, info, hpreimage, hlookup⟩ | ⟨-, hlookup⟩ := lookup_noteOutbound hash
        n.hash n.secret n.amtMsat n.result l.outboundPayments
      · exact Or.inr (Or.inl ⟨n, rfl, hn, hnoted, hhash, info, hpreimage, hlookup⟩)
      · exact Or.inl hlookup
    | event act =>
      obtain ⟨hevent, -, hstep⟩ := Paying.step_event hturn
      have hlookup := Payments.lookup_step hevent hstep hash
      cases act with
      | paymentSent preimage hash' =>
        rw [Act.entry] at hlookup
        by_cases heq : hash' = hash
        · subst heq
          rw [if_pos rfl] at hlookup
          exact Or.inr (Or.inr ⟨preimage, rfl, hlookup⟩)
        · rw [if_neg heq] at hlookup
          exact Or.inl hlookup
      | _ => exact Or.inl hlookup
  | probing act =>
    rw [Ledger.step] at h
    split at h
    case isTrue hprobing =>
      obtain ⟨node, hstep, rfl⟩ := Option.map_eq_some_iff.mp h
      cases act with
      | probe ldk preimage hash pubkeyStr channelIdStr pubkeyGuess =>
        obtain ⟨result, -, rfl⟩ := Option.map_eq_some_iff.mp hstep
        exact Or.inl rfl
      | sendFakePayment ldk hash pubkeyStr =>
        cases hstep
        exact Or.inl rfl
      | _ => cases hprobing.1
    case isFalse => cases h
  | getInvoice amtMsat created =>
    rw [Ledger.step] at h
    split at h
    · obtain rfl := Option.some.inj h
      exact Or.inl rfl
    · cases h
  | paymentClaimed =>
    cases h
    exact Or.inl rfl

/-- What an action does to an entry of `inbound_payments`. -/
theorem Ledger.lookup_inbound (h : l.step us act = some l') (hash : List UInt8) :
    l'.inboundPayments.lookup hash = l.inboundPayments.lookup hash ∨
    (∃ amtMsat secret, act = .getInvoice amtMsat (some (hash, secret)) ∧
      ∃ info, info.preimage = none ∧ l'.inboundPayments.lookup hash = some info) ∨
    ∃ preimage secret amountMsat, act = .paymentClaimed hash preimage secret amountMsat ∧
      HasEntry l'.inboundPayments hash .succeeded preimage := by
  cases act with
  | pay cmd =>
    rw [Ledger.step] at h
    split at h
    · obtain rfl := Option.some.inj h
      exact Or.inl rfl
    · cases h
  | turn turn =>
    obtain ⟨paying, -, rfl⟩ := Option.map_eq_some_iff.mp h
    exact Or.inl rfl
  | probing act =>
    rw [Ledger.step] at h
    split at h
    · obtain ⟨node, -, rfl⟩ := Option.map_eq_some_iff.mp h
      exact Or.inl rfl
    · cases h
  | getInvoice amtMsat created =>
    rw [Ledger.step] at h
    split at h
    case isTrue =>
      obtain rfl := Option.some.inj h
      rcases created with _ | ⟨hash', secret⟩
      · exact Or.inl rfl
      · by_cases heq : hash' = hash
        · subst heq
          exact Or.inr (Or.inl ⟨amtMsat, secret, rfl, _, rfl, AList.lookup_insert _⟩)
        · exact Or.inl (AList.lookup_insert_ne (Ne.symm heq))
    case isFalse => cases h
  | paymentClaimed hash' preimage secret amountMsat =>
    cases h
    show AList.lookup hash (handlePaymentClaimed ..) = _ ∨ _ ∨
      ∃ _ _ _, _ ∧ HasEntry (handlePaymentClaimed ..) hash _ _
    rw [handlePaymentClaimed]
    by_cases heq : hash' = hash
    · subst heq
      refine Or.inr (Or.inr ⟨preimage, secret, amountMsat, rfl, ?_⟩)
      split
      · exact ⟨_, AList.lookup_insert _, rfl, rfl⟩
      · exact ⟨_, AList.lookup_insert _, rfl, rfl⟩
    · refine Or.inl ?_
      split
      · exact AList.lookup_insert_ne (Ne.symm heq)
      · exact AList.lookup_insert_ne (Ne.symm heq)

/-- Every proof in the ledger is the preimage of its hash. -/
structure Ledger.Genuine (preimageOf : List UInt8 → List UInt8) (l : Ledger E) : Prop where
  outbound : ∀ hash preimage, Recorded l.outboundPayments hash preimage →
    preimage = preimageOf hash
  inbound : ∀ hash preimage, Recorded l.inboundPayments hash preimage →
    preimage = preimageOf hash

theorem Recorded.congr {payments payments' : PaymentInfoStorage} {hash preimage : List UInt8}
    (hlookup : payments'.lookup hash = payments.lookup hash)
    (h : Recorded payments hash preimage) : Recorded payments' hash preimage := by
  obtain ⟨info, hinfo, hrest⟩ := h
  exact ⟨info, hlookup.trans hinfo, hrest⟩

/-- A new note has no proof. -/
theorem not_recorded_of_note {payments : PaymentInfoStorage} {hash preimage : List UInt8}
    {info : PaymentInfo} (hlookup : payments.lookup hash = some info)
    (hnone : info.preimage = none) : ¬ Recorded payments hash preimage := by
  rintro ⟨info', hinfo', -, hpreimage⟩
  rw [hlookup] at hinfo'
  cases hinfo'
  rw [hnone] at hpreimage
  cases hpreimage

/-- The end of a payment leaves its own preimage, if anything. -/
theorem Recorded.of_map {payments payments' : PaymentInfoStorage}
    {hash preimage preimage' : List UInt8}
    (hlookup : payments'.lookup hash = (payments.lookup hash).map fun info =>
      { info with preimage := some preimage', status := .succeeded })
    (h : Recorded payments' hash preimage) : preimage = preimage' := by
  obtain ⟨info, hinfo, -, hpreimage⟩ := h
  rw [hlookup] at hinfo
  obtain ⟨info', -, rfl⟩ := Option.map_eq_some_iff.mp hinfo
  exact (Option.some.inj hpreimage).symm

theorem Ledger.Genuine.step {preimageOf : List UInt8 → List UInt8} (h : l.Genuine preimageOf)
    (hact : act.Genuine preimageOf) (hstep : l.step us act = some l') :
    l'.Genuine preimageOf := by
  constructor
  · intro hash preimage hrecorded
    obtain hsame | ⟨n, -, -, -, -, info, hnone, hlookup⟩ | ⟨preimage', rfl, hlookup⟩ :=
      Ledger.lookup_outbound hstep hash
    · exact h.outbound hash preimage (hrecorded.congr hsame.symm)
    · exact absurd hrecorded (not_recorded_of_note hlookup hnone)
    · exact (Recorded.of_map hlookup hrecorded).trans hact
  · intro hash preimage hrecorded
    obtain hsame | ⟨_, _, -, info, hnone, hlookup⟩ | ⟨preimage', _, _, rfl, hentry⟩ :=
      Ledger.lookup_inbound hstep hash
    · exact h.inbound hash preimage (hrecorded.congr hsame.symm)
    · exact absurd hrecorded (not_recorded_of_note hlookup hnone)
    · obtain ⟨info, hinfo, -, hpreimage⟩ := hentry
      obtain ⟨info', hinfo', -, hpreimage'⟩ := hrecorded
      rw [hinfo] at hinfo'
      cases hinfo'
      have hgenuine : preimage' = some (preimageOf hash) := hact
      rw [hpreimage, hgenuine] at hpreimage'
      exact (Option.some.inj hpreimage').symm

/-- **A step that overwrites no proof keeps them all.** -/
theorem Ledger.Genuine.keeps {preimageOf : List UInt8 → List UInt8} (h : l.Genuine preimageOf)
    (hact : act.Genuine preimageOf) (hkept : ¬ l.Overwrites act)
    (hstep : l.step us act = some l') : l.Keeps l' := by
  constructor
  · intro hash preimage hrecorded
    obtain hsame | ⟨n, rfl, hcommand, hnoted, rfl, -⟩ | ⟨preimage', rfl, hlookup⟩ :=
      Ledger.lookup_outbound hstep hash
    · exact hrecorded.congr hsame
    · exact absurd ⟨n, hcommand, hnoted, preimage, hrecorded⟩ hkept
    · -- the same preimage once more
      have hsame : preimage' = preimage := Eq.trans hact (h.outbound hash preimage hrecorded).symm
      obtain ⟨info, hinfo, -⟩ := hrecorded
      rw [hinfo] at hlookup
      exact ⟨_, hlookup, rfl, congrArg some hsame⟩
  · intro hash preimage hrecorded
    obtain hsame | ⟨_, _, rfl, -⟩ | ⟨preimage', _, _, rfl, hentry⟩ :=
      Ledger.lookup_inbound hstep hash
    · exact hrecorded.congr hsame
    · exact absurd ⟨preimage, hrecorded⟩ hkept
    · have hsame : preimage' = some preimage := by
        rw [h.inbound hash preimage hrecorded]
        exact hact
      rw [hsame] at hentry
      exact hentry

/-- A step that overwrites a proof loses it. -/
theorem Ledger.Overwrites.not_keeps (h : l.Overwrites act) (hstep : l.step us act = some l') :
    ¬ l.Keeps l' := by
  intro hkeeps
  cases act with
  | turn turn =>
    cases turn with
    | note =>
      obtain ⟨n, hn, hnoted, preimage, hrecorded⟩ := h
      have hlater := hkeeps.outbound n.hash preimage hrecorded
      obtain ⟨paying, hturn, rfl⟩ := Option.map_eq_some_iff.mp hstep
      obtain ⟨n', hn', rfl⟩ := Option.map_eq_some_iff.mp hturn
      rw [Option.mem_def.mp hn] at hn'
      obtain rfl := Option.some.inj hn'
      obtain ⟨-, -, info, hnone, hlookup⟩ | ⟨hnot, -⟩ := lookup_noteOutbound
        n.hash n.hash n.secret n.amtMsat n.result l.outboundPayments
      · exact not_recorded_of_note hlookup hnone hlater
      · exact hnot ⟨hnoted, rfl⟩
    | event => exact h
  | getInvoice amtMsat created =>
    rcases created with _ | ⟨hash, secret⟩
    · exact h
    · obtain ⟨preimage, hrecorded⟩ := h
      have hlater := hkeeps.inbound hash preimage hrecorded
      rw [Ledger.step] at hstep
      split at hstep
      · obtain rfl := Option.some.inj hstep
        exact not_recorded_of_note (AList.lookup_insert _) rfl hlater
      · cases hstep
  | pay | probing | paymentClaimed => exact h

theorem Ledger.Genuine.run {preimageOf : List UInt8 → List UInt8} {acts : List (LedgerAct E)}
    (h : l.Genuine preimageOf) (hacts : ∀ act ∈ acts, act.Genuine preimageOf)
    (hrun : l.run us acts = some l') : l'.Genuine preimageOf := by
  induction acts generalizing l with
  | nil =>
    cases hrun
    exact h
  | cons act acts ih =>
    rw [Ledger.run_cons] at hrun
    obtain ⟨mid, hstep, hrest⟩ := Option.bind_eq_some_iff.mp hrun
    exact ih (h.step (hacts act List.mem_cons_self) hstep)
      (fun act' hact' => hacts act' (List.mem_cons_of_mem _ hact')) hrest

theorem Ledger.genuine_start (preimageOf : List UInt8 → List UInt8) (attempts : List Attempt) :
    (Ledger.start attempts : Ledger E).Genuine preimageOf := by
  constructor
  · rintro hash preimage ⟨info, hinfo, -⟩
    cases hinfo
  · rintro hash preimage ⟨info, hinfo, -⟩
    cases hinfo

/-- A run in which no proof is overwritten keeps them all. -/
theorem Ledger.Genuine.run_keeps {preimageOf : List UInt8 → List UInt8}
    {acts : List (LedgerAct E)} (h : l.Genuine preimageOf)
    (hacts : ∀ act ∈ acts, act.Genuine preimageOf) (hnever : NeverOverwrites us l acts)
    (hrun : l.run us acts = some l') : l.Keeps l' := by
  induction acts generalizing l with
  | nil =>
    cases hrun
    exact ⟨fun _ _ => id, fun _ _ => id⟩
  | cons act acts ih =>
    rw [Ledger.run_cons] at hrun
    obtain ⟨mid, hstep, hrest⟩ := Option.bind_eq_some_iff.mp hrun
    have hgenuine := hacts act List.mem_cons_self
    have hfirst := h.keeps hgenuine (hnever [] act acts l rfl rfl) hstep
    have hlater := ih (h.step hgenuine hstep)
      (fun act' hact' => hacts act' (List.mem_cons_of_mem _ hact'))
      (fun before act' after mid' hsplit hmid' => by
        refine hnever (act :: before) act' after mid' (by rw [hsplit, List.cons_append]) ?_
        rw [Ledger.run_cons, hstep, Option.bind_some, hmid'])
      hrest
    exact ⟨fun hash preimage hrecorded =>
        hlater.outbound hash preimage (hfirst.outbound hash preimage hrecorded),
      fun hash preimage hrecorded =>
        hlater.inbound hash preimage (hfirst.inbound hash preimage hrecorded)⟩

end

/-- **Proofs of payment are kept exactly in the runs where no command notes a payment in the
place of a proof.**  For every run of one process, whatever events come between the parts of a
command. -/
theorem proofs_kept_iff (us : PublicKey E) (attempts : List Attempt)
    (preimageOf : List UInt8 → List UInt8) (acts : List (LedgerAct E))
    (hgenuine : ∀ act ∈ acts, act.Genuine preimageOf) {final : Ledger E}
    (hrun : (Ledger.start attempts).run us acts = some final) :
    KeepsProofs us (Ledger.start attempts) acts ↔
      NeverOverwrites us (Ledger.start attempts) acts := by
  constructor
  · -- a step that overwrites loses the proof in the state it leads to
    intro hkeeps before act after mid hsplit hmid hover
    rw [hsplit, Ledger.run_append, hmid, Option.bind_some, Ledger.run_cons] at hrun
    obtain ⟨later, hstep, -⟩ := Option.bind_eq_some_iff.mp hrun
    refine hover.not_keeps hstep (hkeeps before [act] after mid later hsplit hmid ?_)
    rw [Ledger.run_cons, hstep]
    rfl
  · -- the proofs are genuine when the steps between begin, and none of these overwrites
    intro hnever before between after mid later hsplit hmid hlater
    have hmem : ∀ act ∈ before ++ (between ++ after), act.Genuine preimageOf := hsplit ▸ hgenuine
    have hsound := (Ledger.genuine_start preimageOf attempts).run
      (fun act hact => hmem act (List.mem_append_left _ hact)) hmid
    refine hsound.run_keeps (fun act hact => hmem act
      (List.mem_append_right _ (List.mem_append_left _ hact))) ?_ hlater
    intro before' act after' mid' hsplit' hmid'
    refine hnever (before ++ before') act (after' ++ after) mid' ?_ ?_
    · rw [hsplit, hsplit']
      simp
    · rw [Ledger.run_append, hmid, Option.bind_some, hmid']

/-! ## The same invoice twice -/

/-- The invoice is paid, the payment arrives, and so does another that was not asked for. -/
def paidOnce : List (LedgerAct sampleKeys) :=
  [.pay payInvoiceOnce, .turn .note, .turn (.event (.paymentSent [9] [7])),
    .paymentClaimed [5] (some [9]) none 3000]

/-- The payer's answer, and the note of it. -/
theorem Ledger.step_payInvoiceOnce {l : Ledger sampleKeys} (hidle : l.paying.command = none)
    (hcache : sampleInvoice.paymentHash ∉ l.paying.node.paymentCache) :
    ∃ asked noted, l.step ourKey (.pay payInvoiceOnce) = some asked ∧
      asked.paying.command = some ⟨[7], some [8], some 1000, .ok ()⟩ ∧
      asked.outboundPayments = l.outboundPayments ∧
      asked.step ourKey (.turn .note) = some noted ∧ noted.paying.command = none ∧
      ([7], publicPath) ∈ noted.paying.node.sent ∧
      ∃ info, noted.outboundPayments.lookup [7] = some info := by
  have hpay := pay_payInvoiceOnce_of_notMem hcache
  have hasked : l.step ourKey (.pay payInvoiceOnce) = some { l with
      paying := ⟨{ l.paying.node with
        paymentCache := l.paying.node.paymentCache.insert [7] 0 }.send [7] [publicPath],
        some ⟨[7], some [8], some 1000, .ok ()⟩⟩ } := by
    rw [Ledger.step, hidle, hpay]
    rfl
  exact ⟨_, _, hasked, rfl, rfl, rfl, rfl, Payments.mem_send (List.mem_singleton_self _), _,
    AList.lookup_insert _⟩

/-- A payment that was sent arrives. -/
theorem Ledger.step_paymentSent (us : PublicKey E) {l : Ledger E} {path : List (RouteHop E)}
    {hash : List UInt8} (hsent : (hash, path) ∈ l.paying.node.sent) {info : PaymentInfo}
    (hinfo : l.outboundPayments.lookup hash = some info) (preimage : List UInt8) :
    ∃ l', l.step us (.turn (.event (.paymentSent preimage hash))) = some l' ∧
      l'.paying.command = l.paying.command ∧ hash ∉ l'.paying.node.paymentCache ∧
      Recorded l'.outboundPayments hash preimage := by
  have hany : ∃ sent ∈ l.paying.node.sent, sent.1 = hash := ⟨_, hsent, rfl⟩
  have hledger : l.step us (.turn (.event (.paymentSent preimage hash))) =
      ((l.paying.node.step us (.paymentSent preimage hash)).map fun node =>
        (⟨node, l.paying.command⟩ : Paying E)).map fun paying => { l with paying := paying } := rfl
  rw [hledger, Payments.step, if_pos hany]
  refine ⟨_, rfl, rfl, ?_, ?_⟩
  · show hash ∉ l.paying.node.paymentCache.erase hash
    rw [AList.mem_erase]
    exact fun h => h.1 rfl
  · have hlookup := lookup_handlePaymentSent preimage hash hash l.outboundPayments
    rw [if_pos rfl, hinfo] at hlookup
    exact ⟨_, hlookup, rfl, rfl⟩

theorem run_paidOnce : ∃ l, (Ledger.start []).run ourKey paidOnce = some l ∧
    l.paying.command = none ∧ sampleInvoice.paymentHash ∉ l.paying.node.paymentCache ∧
    Recorded l.outboundPayments [7] [9] ∧ Recorded l.inboundPayments [5] [9] := by
  obtain ⟨asked, noted, hpay, -, -, hnote, hidle, hsent, info, hinfo⟩ :=
    Ledger.step_payInvoiceOnce (l := Ledger.start []) rfl (AList.notMem_empty _)
  obtain ⟨l, hstep, hreturned, hcache, hrecorded⟩ := Ledger.step_paymentSent ourKey hsent hinfo [9]
  refine ⟨⟨l.paying, handlePaymentClaimed [5] (some [9]) none 3000 l.inboundPayments⟩, ?_,
    hreturned.trans hidle, hcache, hrecorded, ?_⟩
  · rw [paidOnce, Ledger.run_cons, hpay, Option.bind_some, Ledger.run_cons, hnote,
      Option.bind_some, Ledger.run_cons, hstep]
    rfl
  · show Recorded (handlePaymentClaimed ..) _ _
    rw [handlePaymentClaimed]
    split
    · exact ⟨_, AList.lookup_insert _, rfl, rfl⟩
    · exact ⟨_, AList.lookup_insert _, rfl, rfl⟩

theorem genuine_paidOnce : ∀ act ∈ paidOnce, act.Genuine fun _ => [9] := by
  simp [paidOnce, LedgerAct.Genuine]

/-- One payment of the invoice overwrites nothing. -/
theorem neverOverwrites_paidOnce : NeverOverwrites ourKey (Ledger.start []) paidOnce := by
  rintro before act after mid hsplit hmid
  obtain ⟨asked, noted, hpay, hcommand, houtbound, -⟩ :=
    Ledger.step_payInvoiceOnce (l := Ledger.start []) rfl (AList.notMem_empty _)
  rcases before with _ | ⟨first, _ | ⟨second, _ | ⟨third, _ | ⟨fourth, before⟩⟩⟩⟩
  · cases hsplit
    exact id
  · -- nothing is recorded yet when the note is made
    cases hsplit
    rw [Ledger.run_cons, hpay] at hmid
    obtain rfl := Option.some.inj hmid
    rintro ⟨n, -, -, preimage, info, hinfo, -⟩
    rw [houtbound] at hinfo
    cases hinfo
  · cases hsplit
    exact id
  · cases hsplit
    exact id
  · have hlength := congrArg List.length hsplit
    simp [paidOnce] at hlength

/-- The proof of the one payment is kept. -/
theorem proofs_kept_paidOnce : (∀ act ∈ paidOnce, act.Genuine fun _ => [9]) ∧
    (∃ l, (Ledger.start []).run ourKey paidOnce = some l ∧
      Recorded l.outboundPayments [7] [9] ∧ Recorded l.inboundPayments [5] [9]) ∧
    KeepsProofs ourKey (Ledger.start []) paidOnce := by
  obtain ⟨l, hrun, -, -, hrecorded⟩ := run_paidOnce
  exact ⟨genuine_paidOnce, ⟨l, hrun, hrecorded⟩,
    (proofs_kept_iff ourKey [] (fun _ => [9]) paidOnce genuine_paidOnce hrun).mpr
      neverOverwrites_paidOnce⟩

/-- Paid a second time, the invoice has no proof any more. -/
theorem proof_lost : ∃ mid later, (Ledger.start []).run ourKey paidOnce = some mid ∧
    Recorded mid.outboundPayments [7] [9] ∧
    mid.run ourKey [.pay payInvoiceOnce, .turn .note] = some later ∧
    ¬ KeepsProofs ourKey (Ledger.start [])
      (paidOnce ++ [.pay payInvoiceOnce, .turn .note]) := by
  obtain ⟨mid, hrun, hidle, hcache, hrecorded, -⟩ := run_paidOnce
  obtain ⟨asked, later, hpay, hcommand, houtbound, hnote, -⟩ :=
    Ledger.step_payInvoiceOnce hidle hcache
  have hagain : mid.run ourKey [.pay payInvoiceOnce, .turn .note] = some later := by
    rw [Ledger.run_cons, hpay, Option.bind_some, Ledger.run_cons, hnote]
    rfl
  refine ⟨mid, later, hrun, hrecorded, hagain, ?_⟩
  intro hkeeps
  have hover : asked.Overwrites (.turn .note) :=
    ⟨_, hcommand, trivial, [9], by rw [houtbound]; exact hrecorded⟩
  refine hover.not_keeps hnote
    (hkeeps (paidOnce ++ [.pay payInvoiceOnce]) [.turn .note] [] asked later ?_ ?_ ?_)
  · simp
  · rw [Ledger.run_append, hrun, Option.bind_some, Ledger.run_cons, hpay]
    rfl
  · rw [Ledger.run_cons, hnote]
    rfl

end HiddenLightning
