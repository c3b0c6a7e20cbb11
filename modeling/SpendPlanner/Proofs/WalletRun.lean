import SpendPlanner.Proofs.Selection.Listings
import SpendPlanner.Wallet

/-!
# Value over wallet runs

A wallet sends, consolidates and sweeps what the selector lists, and records are observed and
found spent in between.  Whatever records stand for the outputs that come back, as long as
each has a key image that is not held, every step moves exactly the value it reports and
touches no other token.  So over a whole run the balance of a token changes by what came in
and what went out.
-/

namespace SpendPlanner
namespace Wallet

/-- A step of a wallet: an action on the records of one token, what is reported of it, and the
accounts before and after. -/
structure Transition where
  token : TokenId
  action : Action
  before : Account
  result : Except SelectionError Report
  after : Account

/-- How a wallet with the selector does an action.  A record that stands for an output of its
own may be any record of the right value and token under a key image that is not held. -/
inductive Performs (s : Selector) (token : TokenId) (account : Account) :
    Action → Except SelectionError Report → Account → Prop where
  | insert (r : Record) :
      Performs s token account (.insert r) (.ok (.inserted (account.observe r).1))
        (account.observe r).2
  | spend (images : List KeyImage) :
      Performs s token account (.spend images) (.ok (.spent (account.spendAll images).1))
        (account.spendAll images).2
  | snapshot :
      Performs s token account .snapshot (.ok (.records (account.ofToken token))) account
  | transferable (rule : FeeRule) :
      Performs s token account (.transferable rule)
        ((s.transferable token rule (account.ofToken token)).map .transferable) account
  | send {amount : UInt64} {rule : FeeRule} {selection : InputSelection} {count : ℕ}
      {later : Account}
      (hselect : s.select ⟨amount, token⟩ rule (account.ofToken token) = .ok selection)
      (hsettles : account.Settles token [selection.settlement amount] [count] later) :
      Performs s token account (.send amount rule) (.ok (.sent count selection)) later
  | sendRefused {amount : UInt64} {rule : FeeRule} {error : SelectionError}
      (hselect : s.select ⟨amount, token⟩ rule (account.ofToken token) = .error error) :
      Performs s token account (.send amount rule) (.error error) account
  | defragment {amount : UInt64} {rule : FeeRule} {steps : List ReadyMerge} {counts : List ℕ}
      {later : Account}
      (hdefragment : s.defragment ⟨amount, token⟩ rule (account.ofToken token) = .ok steps)
      (hsettles : account.Settles token (steps.map ReadyMerge.settlement) counts later) :
      Performs s token account (.defragment amount rule)
        (.ok (.defragmented (counts.zip steps))) later
  | defragmentRefused {amount : UInt64} {rule : FeeRule} {error : SelectionError}
      (hdefragment : s.defragment ⟨amount, token⟩ rule (account.ofToken token) =
        .error error) :
      Performs s token account (.defragment amount rule) (.error error) account
  | sweep {rule : FeeRule} {selection : Sweep} {count : ℕ} {later : Account}
      (hsweep : s.sweep token rule (account.ofToken token) = .ok selection)
      (hsettles : account.Settles token [selection.settlement] [count] later) :
      Performs s token account (.sweep rule) (.ok (.swept count selection)) later
  | sweepRefused {rule : FeeRule} {error : SelectionError}
      (hsweep : s.sweep token rule (account.ofToken token) = .error error) :
      Performs s token account (.sweep rule) (.error error) account

/-- Steps of a wallet one after the other. -/
inductive Run (s : Selector) : Account → List Transition → Account → Prop where
  | stop (account : Account) : Run s account [] account
  | next {t : Transition} {ts : List Transition} {later : Account}
      (hperforms : Performs s t.token t.before t.action t.result t.after)
      (hlater : Run s t.after ts later) :
      Run s t.before (t :: ts) later

namespace Transition

/-- The records that a step lists to be spent, transaction by transaction, each with the number
of records that were taken out for it. -/
def listings (t : Transition) : List (ℕ × List Record) :=
  match t.result with
  | .ok (.sent count selection) => [(count, selection.inputs)]
  | .ok (.defragmented steps) => steps.map fun (count, step) => (count, step.inputs)
  | .ok (.swept count selection) => [(count, selection.inputs)]
  | _ => []

/-- What a step takes away of a token. -/
def outflow (t : Transition) (token : TokenId) : ℕ :=
  match t.action, t.result with
  | .spend images, _ =>
    total (Record.values ((t.before.ofToken token).filter fun r => r.keyImage ∈ images))
  | .send amount _, .ok (.sent _ selection) =>
    if t.token = token then amount.toNat + selection.fee.toNat else 0
  | .defragment _ _, .ok (.defragmented steps) =>
    if t.token = token then total (steps.map fun (_, step) => step.fee) else 0
  | .sweep _, .ok (.swept _ selection) =>
    if t.token = token then selection.amount.toNat + selection.fee.toNat else 0
  | _, _ => 0

/-- What a step brings in of a token. -/
def inflow (t : Transition) (token : TokenId) : ℕ :=
  match t.action, t.result with
  | .insert r, .ok (.inserted true) => if r.token = token then r.value.toNat else 0
  | _, _ => 0

/-- Whether a step is about records of a token. -/
def Concerns (t : Transition) (token : TokenId) : Prop :=
  match t.action with
  | .insert r => r.token = token
  | .spend images => ∃ r ∈ t.before.ofToken token, r.keyImage ∈ images
  | _ => t.token = token

/-- A step moves what it reports and nothing else: its listings are of different records of its
token, no longer than the limit, and each record is taken out once. -/
structure Conserves (s : Selector) (t : Transition) : Prop where
  balance : ∀ token, worth (t.after.valuesOf token) + t.outflow token =
    worth (t.before.valuesOf token) + t.inflow token
  others : ∀ token, ¬t.Concerns token → t.after.ofToken token = t.before.ofToken token
  counted : ∀ listing ∈ t.listings, listing.1 = listing.2.length
  held : ∀ listing ∈ t.listings, ∀ r ∈ listing.2, r ∈ t.before.ofToken t.token
  nodup : (t.listings.flatMap Prod.snd).Nodup
  bounded : ∀ listing ∈ t.listings, listing.2 ≠ [] ∧ listing.2.length ≤ s.limit
  refused : ∀ error, t.result = .error error → t.after = t.before

variable {s : Selector} {t : Transition}

/-- A step that lists nothing to be spent. -/
theorem conserves_of_listings_eq_nil (hlistings : t.listings = [])
    (hbalance : ∀ token, worth (t.after.valuesOf token) + t.outflow token =
      worth (t.before.valuesOf token) + t.inflow token)
    (hothers : ∀ token, ¬t.Concerns token → t.after.ofToken token = t.before.ofToken token)
    (hrefused : ∀ error, t.result = .error error → t.after = t.before) : t.Conserves s := by
  constructor
  · exact hbalance
  · exact hothers
  · simp [hlistings]
  · simp [hlistings]
  · simp [hlistings]
  · simp [hlistings]
  · exact hrefused

/-- A step that leaves the account alone. -/
theorem conserves_of_eq (hafter : t.after = t.before) (hlistings : t.listings = [])
    (houtflow : ∀ token, t.outflow token = 0) (hinflow : ∀ token, t.inflow token = 0) :
    t.Conserves s := by
  refine conserves_of_listings_eq_nil hlistings ?_ ?_ fun _ _ => hafter
  · intro token
    rw [hafter, houtflow, hinflow]
  · intro token _
    rw [hafter]

/-- A step that settles transactions on records of its token. -/
theorem conserves_of_settles {settled : List Settlement} {counts : List ℕ}
    (hspends : s.Spends (spendingOrder t.token (t.before.ofToken t.token)) settled)
    (hsettles : t.before.Settles t.token settled counts t.after)
    (hlistings : t.listings = counts.zip (settled.map Settlement.inputs))
    (houtflow : ∀ token, t.outflow token =
      if t.token = token then (settled.map Settlement.outlay).sum else 0)
    (hinflow : ∀ token, t.inflow token = 0)
    (hconcerns : ∀ token, t.Concerns token ↔ t.token = token)
    (hresult : ∀ error, t.result ≠ .error error) : t.Conserves s := by
  have hinputs := hspends.inputs_le
  rw [Account.coe_spendingOrder_ofToken] at hinputs
  have hcounted : t.listings = settled.map fun transaction =>
      (transaction.inputs.length, transaction.inputs) := by
    rw [hlistings, hsettles.counts_eq hinputs, List.zip_map']
  have hlisted : t.listings.flatMap Prod.snd = settled.flatMap Settlement.inputs := by
    rw [hcounted, List.flatMap_map]
  constructor
  · intro token
    rw [houtflow, hinflow, add_zero]
    by_cases htoken : t.token = token
    · rw [if_pos htoken, ← htoken]
      exact hsettles.worth_add hinputs hspends.balanced
    · rw [if_neg htoken, Account.valuesOf, hsettles.ofToken_of_ne hinputs (Ne.symm htoken)]
      rfl
  · intro token hother
    rw [hconcerns] at hother
    exact hsettles.ofToken_of_ne hinputs (Ne.symm hother)
  · intro listing hlisting
    rw [hcounted, List.mem_map] at hlisting
    obtain ⟨transaction, -, rfl⟩ := hlisting
    rfl
  · intro listing hlisting r hr
    have hmem : r ∈ t.listings.flatMap Prod.snd := List.mem_flatMap.mpr ⟨listing, hlisting, hr⟩
    rw [hlisted] at hmem
    exact Multiset.mem_of_le hinputs hmem
  · rw [hlisted]
    exact Multiset.nodup_of_le hinputs (Account.nodup_ofToken t.before t.token)
  · intro listing hlisting
    rw [hcounted, List.mem_map] at hlisting
    obtain ⟨transaction, htransaction, rfl⟩ := hlisting
    exact ⟨hspends.ne_nil _ htransaction, hspends.length_le _ htransaction⟩
  · intro error herror
    exact absurd herror (hresult error)

theorem conserves_insert (s : Selector) (token : TokenId) (account : Account) (r : Record) :
    Conserves s ⟨token, .insert r, account, .ok (.inserted (account.observe r).1),
      (account.observe r).2⟩ := by
  cases hheld : account.holds r.keyImage with
  | true =>
      refine conserves_of_eq (Account.insert_of_holds hheld) rfl (fun _ => rfl) fun _ => ?_
      simp [inflow, Account.observe, hheld]
  | false =>
      have hreceived : account.Receives r.token (some r.value) (account.insert r) :=
        .record rfl hheld
      refine conserves_of_listings_eq_nil rfl ?_ ?_ fun _ herror => nomatch herror
      · intro other
        have hinflow : inflow ⟨token, .insert r, account, .ok (.inserted (account.observe r).1),
            (account.observe r).2⟩ other = if r.token = other then r.value.toNat else 0 := by
          simp [inflow, Account.observe, hheld]
        rw [hinflow]
        by_cases htoken : r.token = other
        · subst htoken
          rw [if_pos rfl]
          exact (congrArg worth hreceived.valuesOf_eq).trans (by simp [worth])
        · rw [if_neg htoken]
          exact congrArg (fun records : List Record => worth (records.map Record.value))
            (hreceived.ofToken_of_ne (Ne.symm htoken))
      · intro other hother
        exact Account.ofToken_insert_of_ne hother

theorem conserves_spend (s : Selector) (token : TokenId) (account : Account)
    (images : List KeyImage) :
    Conserves s ⟨token, .spend images, account, .ok (.spent (account.spendAll images).1),
      (account.spendAll images).2⟩ := by
  refine conserves_of_listings_eq_nil rfl ?_ ?_ fun _ herror => nomatch herror
  · intro other
    change worth ((account.spendAll images).2.valuesOf other) +
      total (Record.values ((account.ofToken other).filter fun r => r.keyImage ∈ images)) =
        worth (account.valuesOf other)
    have hsplit := Multiset.filter_add_not (fun r : Record => r.keyImage ∈ images)
      (account.ofToken other)
    rw [Account.valuesOf, Account.valuesOf, Account.ofToken_spendAll, ← worth_coe, add_comm,
      ← SpendPlanner.worth_add, ← hsplit, Multiset.map_add]
    rfl
  · intro other hother
    refine (Account.ofToken_spendAll account images other).trans ?_
    rw [List.filter_eq_self]
    intro r hr
    rw [decide_eq_true_eq]
    intro hmem
    exact hother ⟨r, hr, hmem⟩

end Transition

variable {s : Selector}

/-- Whatever a wallet does, it moves what it reports. -/
theorem Performs.conserves {token : TokenId} {account later : Account} {action : Action}
    {result : Except SelectionError Report} (h : Performs s token account action result later) :
    Transition.Conserves s ⟨token, action, account, result, later⟩ := by
  cases h with
  | insert r => exact Transition.conserves_insert s token account r
  | spend images => exact Transition.conserves_spend s token account images
  | snapshot => exact Transition.conserves_of_eq rfl rfl (fun _ => rfl) fun _ => rfl
  | transferable rule =>
      cases s.transferable token rule (account.ofToken token) with
      | error error => exact Transition.conserves_of_eq rfl rfl (fun _ => rfl) fun _ => rfl
      | ok amount => exact Transition.conserves_of_eq rfl rfl (fun _ => rfl) fun _ => rfl
  | @send amount rule selection count later hselect hsettles =>
      exact Transition.conserves_of_settles (Selector.spends_of_select hselect) hsettles rfl
        (fun _ => by simp [Transition.outflow, InputSelection.settlement]) (fun _ => rfl)
        (fun _ => Iff.rfl) (by simp)
  | sendRefused hselect =>
      exact Transition.conserves_of_eq rfl rfl (fun _ => rfl) fun _ => rfl
  | @defragment amount rule steps counts later hdefragment hsettles =>
      have hlength : steps.length ≤ counts.length := by
        rw [hsettles.length_counts, List.length_map]
      have hfees : (counts.zip steps).map (fun (_, step) => step.fee) =
          steps.map ReadyMerge.fee := by
        have hsnd := congrArg (List.map ReadyMerge.fee) (List.map_snd_zip hlength)
        rwa [List.map_map] at hsnd
      have hlistings : (counts.zip steps).map (fun (count, step) => (count, step.inputs)) =
          counts.zip ((steps.map ReadyMerge.settlement).map Settlement.inputs) := by
        rw [List.map_map, List.zip_map_right]
        rfl
      refine Transition.conserves_of_settles (Selector.spends_of_defragment hdefragment) hsettles
        hlistings (fun other => ?_) (fun _ => rfl) (fun _ => Iff.rfl) (by simp)
      have hoftotal : total (steps.map ReadyMerge.fee) =
          ((steps.map ReadyMerge.settlement).map Settlement.outlay).sum := by
        rw [total_map, List.map_map]
        rfl
      simp only [Transition.outflow, hfees, hoftotal]
  | defragmentRefused hdefragment =>
      exact Transition.conserves_of_eq rfl rfl (fun _ => rfl) fun _ => rfl
  | @sweep rule selection count later hsweep hsettles =>
      exact Transition.conserves_of_settles (Selector.spends_of_sweep hsweep) hsettles rfl
        (fun _ => by simp [Transition.outflow, Sweep.settlement]) (fun _ => rfl)
        (fun _ => Iff.rfl) (by simp)
  | sweepRefused hsweep =>
      exact Transition.conserves_of_eq rfl rfl (fun _ => rfl) fun _ => rfl

/-- Over a run every step moves what it reports.  So what an account is worth in a token and
what went out of it are together what it was worth at the start and what came in. -/
theorem run_conserves_value (s : Selector) {account later : Account} {ts : List Transition}
    (h : Run s account ts later) :
    (∀ t ∈ ts, t.Conserves s) ∧
      ∀ token, worth (later.valuesOf token) + (ts.map fun t => t.outflow token).sum =
        worth (account.valuesOf token) + (ts.map fun t => t.inflow token).sum := by
  induction h with
  | stop account => simp
  | @next t ts later hperforms hlater ih =>
      obtain ⟨hsteps, hbalance⟩ := ih
      have hstep : t.Conserves s := hperforms.conserves
      refine ⟨List.forall_mem_cons.mpr ⟨hstep, hsteps⟩, fun token => ?_⟩
      have hfirst := hstep.balance token
      have hrest := hbalance token
      rw [List.map_cons, List.map_cons, List.sum_cons, List.sum_cons]
      omega

/-- Two consolidations of tens and a payment of 30 take 33 out of 50. -/
theorem run_conserves_value_five_tens :
    ∃ (account later : Account) (ts : List Transition),
      Run (.ofLimit 2) account ts later ∧ worth (account.valuesOf .mob) = 50 ∧
        worth (later.valuesOf .mob) = 17 := by
  let account : Account := .ofRecords [.numbered 10 0 .mob 0, .numbered 10 1 .mob 0,
    .numbered 10 2 .mob 0, .numbered 10 3 .mob 0, .numbered 10 4 .mob 0]
  let first : ReadyMerge := ⟨[.numbered 10 3 .mob 0, .numbered 10 4 .mob 0], 1, 19⟩
  let second : ReadyMerge := ⟨[.numbered 10 1 .mob 0, .numbered 10 2 .mob 0], 1, 19⟩
  let selection : InputSelection :=
    ⟨[.numbered 19 5 .mob 0, .numbered 19 6 .mob 0], 38, 1, 7⟩
  let begun : Account := ((account.spendAll (first.inputs.map Record.keyImage)).2).insert
    (.numbered 19 5 .mob 0)
  let merged : Account := ((begun.spendAll (second.inputs.map Record.keyImage)).2).insert
    (.numbered 19 6 .mob 0)
  let later : Account := ((merged.spendAll (selection.inputs.map Record.keyImage)).2).insert
    (.numbered 7 7 .mob 0)
  have hmerges : Performs (.ofLimit 2) .mob account (.defragment 46 (.fixed 1))
      (.ok (.defragmented ([2, 2].zip [first, second]))) merged := by
    have hfirst : (account.spendAll (first.inputs.map Record.keyImage)).2.Receives .mob
        (some first.output) begun :=
      .record (r := .numbered 19 5 .mob 0) rfl (by cbv)
    have hsecond : (begun.spendAll (second.inputs.map Record.keyImage)).2.Receives .mob
        (some second.output) merged :=
      .record (r := .numbered 19 6 .mob 0) rfl (by cbv)
    exact .defragment (by cbv) (.next (by cbv) hfirst (.next (by cbv) hsecond (.done merged)))
  have hpayment : Performs (.ofLimit 2) .mob merged (.send 30 (.fixed 1))
      (.ok (.sent 2 selection)) later := by
    have hchange : (merged.spendAll (selection.inputs.map Record.keyImage)).2.Receives .mob
        (some selection.change) later :=
      .record (r := .numbered 7 7 .mob 0) rfl (by cbv)
    exact .send (by cbv) (.next (by cbv) hchange (.done later))
  let merging : Transition := ⟨.mob, .defragment 46 (.fixed 1), account,
    .ok (.defragmented ([2, 2].zip [first, second])), merged⟩
  let paying : Transition := ⟨.mob, .send 30 (.fixed 1), merged, .ok (.sent 2 selection), later⟩
  have hrun : Run (.ofLimit 2) account [merging, paying] later :=
    .next (t := merging) hmerges (.next (t := paying) hpayment (.stop later))
  have htotal : total (Record.values (account.ofToken .mob)) = 50 := by cbv
  have hstart : worth (account.valuesOf .mob) = 50 :=
    (worth_coe (Record.values (account.ofToken .mob))).trans htotal
  obtain ⟨-, hbalance⟩ := run_conserves_value (.ofLimit 2) hrun
  have hend := hbalance .mob
  rw [hstart] at hend
  refine ⟨account, later, _, hrun, hstart, ?_⟩
  have hout : ([merging, paying].map fun t => t.outflow .mob).sum = 33 := by decide
  have hin : ([merging, paying].map fun t => t.inflow .mob).sum = 0 := by decide
  omega

/-! ## Runs of the wallet that numbers its records -/

/-- The next record of the wallet's own is under a key image that is not held. -/
def Free (w : Wallet) : Prop :=
  w.account.holds (Record.numbered 0 w.nextIndex .mob 0).keyImage = false

/-- Every output of the consolidations is put in under a key image that is not held. -/
def CarriesOutFresh (token : TokenId) : Wallet → List ReadyMerge → Prop
  | _, [] => True
  | w, step :: steps =>
    (w.takeOut step.inputs).2.Free ∧
      CarriesOutFresh token ((w.takeOut step.inputs).2.put step.output token) steps

/-- Whatever the action puts in is under a key image that is not held. -/
def PerformsFresh (w : Wallet) (token : TokenId) : Action → Prop
  | .send amount rule => ∀ selection,
    w.selector.select ⟨amount, token⟩ rule (w.account.ofToken token) = .ok selection →
      selection.change ≠ 0 → (w.takeOut selection.inputs).2.Free
  | .defragment amount rule => ∀ steps,
    w.selector.defragment ⟨amount, token⟩ rule (w.account.ofToken token) = .ok steps →
      CarriesOutFresh token w steps
  | _ => True

/-- The same for actions in order. -/
def RunsFresh : Wallet → List (TokenId × Action) → Prop
  | _, [] => True
  | w, (token, action) :: actions =>
    w.PerformsFresh token action ∧ RunsFresh (w.perform token action).2 actions

/-- The steps of a wallet that does actions in order. -/
def transitions : Wallet → List (TokenId × Action) → List Transition
  | _, [] => []
  | w, (token, action) :: actions =>
    ⟨token, action, w.account, (w.perform token action).1,
      (w.perform token action).2.account⟩ ::
        transitions (w.perform token action).2 actions

theorem Free.receives {w : Wallet} (h : w.Free) (value : UInt64) (token : TokenId) :
    w.account.Receives token (some value) (w.put value token).account :=
  .record (r := .numbered value w.nextIndex token 0) rfl h

theorem carryOut_settles {token : TokenId} {w : Wallet} {steps : List ReadyMerge}
    (h : CarriesOutFresh token w steps) :
    ∃ counts, (w.carryOut token steps).1 = counts.zip steps ∧
      w.account.Settles token (steps.map ReadyMerge.settlement) counts
        (w.carryOut token steps).2.account := by
  induction steps generalizing w with
  | nil => exact ⟨[], rfl, .done w.account⟩
  | cons step steps ih =>
      obtain ⟨hfree, hlater⟩ := h
      obtain ⟨counts, hreports, hsettles⟩ := ih hlater
      refine ⟨(w.takeOut step.inputs).1 :: counts, ?_, ?_⟩
      · rw [List.zip_cons_cons, ← hreports]
        rfl
      · exact .next rfl (hfree.receives step.output token) hsettles

/-- What the wallet does is what a wallet may do, as long as the key images of its records are
not held. -/
theorem performs (w : Wallet) (token : TokenId) (action : Action)
    (h : w.PerformsFresh token action) :
    Performs w.selector token w.account action (w.perform token action).1
      (w.perform token action).2.account := by
  cases action with
  | insert r => exact .insert r
  | spend images => exact .spend images
  | snapshot => exact .snapshot
  | transferable rule => exact .transferable rule
  | send amount rule =>
      cases hselect : w.selector.select ⟨amount, token⟩ rule (w.account.ofToken token) with
      | error error =>
          simp only [perform, hselect]
          exact .sendRefused hselect
      | ok selection =>
          simp only [perform, hselect]
          refine .send hselect (.next rfl ?_ (.done _))
          by_cases hchange : selection.change = 0
          · rw [InputSelection.settlement, if_pos hchange, if_pos hchange]
            exact .nothing
          · rw [InputSelection.settlement, if_neg hchange, if_neg hchange]
            exact (h selection hselect hchange).receives selection.change token
  | defragment amount rule =>
      cases hdefragment : w.selector.defragment ⟨amount, token⟩ rule
          (w.account.ofToken token) with
      | error error =>
          simp only [perform, hdefragment]
          exact .defragmentRefused hdefragment
      | ok steps =>
          obtain ⟨counts, hreports, hsettles⟩ := carryOut_settles (h steps hdefragment)
          simp only [perform, hdefragment, hreports]
          exact .defragment hdefragment hsettles
  | sweep rule =>
      cases hsweep : w.selector.sweep token rule (w.account.ofToken token) with
      | error error =>
          simp only [perform, hsweep]
          exact .sweepRefused hsweep
      | ok selection =>
          simp only [perform, hsweep]
          exact .sweep hsweep (.next rfl .nothing (.done _))

theorem selector_carryOut (w : Wallet) (token : TokenId) (steps : List ReadyMerge) :
    (w.carryOut token steps).2.selector = w.selector := by
  induction steps generalizing w with
  | nil => rfl
  | cons step steps ih => exact ih _

theorem selector_perform (w : Wallet) (token : TokenId) (action : Action) :
    (w.perform token action).2.selector = w.selector := by
  cases action with
  | insert r => rfl
  | spend images => rfl
  | snapshot => rfl
  | transferable rule => rfl
  | send amount rule =>
      simp only [perform]
      split
      · rfl
      · split <;> rfl
  | defragment amount rule =>
      simp only [perform]
      split
      · rfl
      · exact selector_carryOut w token _
  | sweep rule =>
      simp only [perform]
      split
      · rfl
      · rfl

/-- The steps of a wallet that numbers its records are a run. -/
theorem run_transitions {w : Wallet} {actions : List (TokenId × Action)}
    (h : w.RunsFresh actions) :
    Run w.selector w.account (w.transitions actions) (w.run actions).account := by
  induction actions generalizing w with
  | nil => exact .stop w.account
  | cons step actions ih =>
      obtain ⟨token, action⟩ := step
      obtain ⟨hfirst, hlater⟩ := h
      have hrun := ih hlater
      rw [selector_perform] at hrun
      let t : Transition := ⟨token, action, w.account, (w.perform token action).1,
        (w.perform token action).2.account⟩
      exact .next (t := t) (w.performs token action hfirst) hrun

end Wallet
end SpendPlanner
