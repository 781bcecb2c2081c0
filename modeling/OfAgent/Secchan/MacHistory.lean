import Mathlib.Data.Fintype.Basic
import OfAgent.Secchan.MacLearning

/-!
# Histories of MAC learning

What a table that has learned addresses, and forgotten some, still knows. The clock of the operating
system is free to go back, so that the list in the order of use need not be in the order of
expiration.

* `MacEvent`: the calls; `MacLearning.after`: the table after a sequence of them.
* `viewNext`: what a call does to the entries in use. `MacLearning.exists_after`: the table after
  any calls is valid, and its entries in use are those of `viewNext`.
* `Forgets`: why an entry may go. `MacLearning.Remembers`: a lookup finds the port that was learned
  last, unless the entry has gone.
* `MacLearning.right_after`: all this holds after any calls, and the list is in the order of the
  last calls that have learned its pairs, which is the order of expiration if the clock never went
  back between two of them.
-/

namespace OfAgent

/-! ### Calls -/

/-- A call of a function of a table. -/
inductive MacEvent
  /-- `mac_learning_learn`. -/
  | learn (now : ℤ) (srcMac : BitVec 48) (vlan srcPort : BitVec 16) (randomTag : BitVec 32)
  /-- `mac_learning_lookup`. -/
  | lookup (dst : BitVec 48) (vlan : BitVec 16)
  /-- `mac_learning_run`. -/
  | run (clock : ℕ → ℤ)
  /-- `mac_learning_flush`. -/
  | flush

namespace MacEvent

/-- The pair that a call learns, and when. -/
def learned : MacEvent → Option ((BitVec 48 × BitVec 16) × ℤ)
  | learn now srcMac vlan _ _ =>
      if ethAddrIsMulticast srcMac then none else some ((srcMac, vlan), now)
  | _ => none

/-- The call learns the pair. -/
def Learns (k : BitVec 48 × BitVec 16) (e : MacEvent) : Prop :=
  ∃ now, e.learned = some (k, now)

end MacEvent

/-- The pairs that are learned, with repetitions. -/
def learnedPairs (es : List MacEvent) : List (BitVec 48 × BitVec 16) :=
  (es.filterMap MacEvent.learned).map Prod.fst

/-- The pairs in the order in which they are learned last. -/
def learnOrder (es : List MacEvent) : List (BitVec 48 × BitVec 16) :=
  (learnedPairs es).foldl (fun order k => Lru.touch k order) []

/-- The clock does not go back between two calls that learn. -/
def LearnsInTime (es : List MacEvent) : Prop :=
  ((es.filterMap MacEvent.learned).map Prod.snd).Pairwise (· ≤ ·)

namespace MacLearning

variable (h : MacHash) (garbage : Fin macMax → MacEntry) (ml : MacLearning)

/-- The table after a call. -/
def next (ml : MacLearning) : MacEvent → Option MacLearning
  | .learn now srcMac vlan srcPort randomTag =>
      (ml.learn h now srcMac vlan srcPort randomTag).map Prod.fst
  | .lookup _ _ => some ml
  | .run clock => some (ml.run clock).1
  | .flush => some ml.flush

/-- A new table after a sequence of calls. -/
def after (es : List MacEvent) : Option MacLearning :=
  es.foldlM (next h) (macLearningCreate garbage)

/-- A pair has an entry. -/
def Knows (k : BitVec 48 × BitVec 16) : Prop := k ∈ ml.lrus.map ml.pair

/-- The expiration times of the entries in use. -/
def expirations : List ℤ := ml.lrus.map fun e => (ml.entries e).expires

/-- Why a call may remove the entry of a pair that has been learned before the given calls: a run
finds it expired, it is flushed, or as many other pairs as there are entries have been learned. -/
def Forgets (k : BitVec 48 × BitVec 16) (expires : ℤ) (since : List MacEvent) (e : MacEvent) :
    Prop :=
  match e with
  | .learn .. => macMax ≤ ((learnedPairs (since ++ [e])).toFinset.erase k).card
  | .lookup .. => False
  | .run clock => ∃ i, expires ≤ clock i
  | .flush => True

/-- What lookups tell after some calls. -/
structure Remembers (es : List MacEvent) : Prop where
  /-- A pair that has never been learned is not known. -/
  never : ∀ mac vlan, (∀ e ∈ es, ¬ e.Learns (mac, vlan)) → ml.lookup h mac vlan = ofppFlood
  /-- The port that was learned last is known, or the entry has gone since. -/
  last : ∀ before now mac vlan srcPort randomTag since,
    es = before ++ .learn now mac vlan srcPort randomTag :: since →
    ethAddrIsMulticast mac = false → (∀ e ∈ since, ¬ e.Learns (mac, vlan)) →
      (ml.Knows (mac, vlan) ∧ ml.lookup h mac vlan = srcPort) ∨
      (¬ ml.Knows (mac, vlan) ∧ ml.lookup h mac vlan = ofppFlood ∧
        ∃ first e rest ml₁ ml₂, since = first ++ e :: rest ∧
          after h garbage (before ++ .learn now mac vlan srcPort randomTag :: first) = some ml₁ ∧
          ml₁.next h e = some ml₂ ∧ ml₁.Knows (mac, vlan) ∧ ¬ ml₂.Knows (mac, vlan) ∧
          Forgets (mac, vlan) (now + 60) first e)

/-- What holds after some calls. -/
structure Right (es : List MacEvent) : Prop where
  /-- The lists fit together. -/
  valid : ml.Valid h
  /-- A pair has at most one entry. -/
  nodup : (ml.lrus.map ml.pair).Nodup
  /-- There is room for the entries. -/
  length_le : ml.lrus.length ≤ macMax
  /-- The entries are in the order in which their pairs have been learned last. -/
  order : (ml.lrus.map ml.pair).Sublist (learnOrder es)
  /-- So they are in the order of expiration if the clock did not go back. -/
  expires : LearnsInTime es → ml.expirations.Pairwise (· ≤ ·)
  /-- Lookups find what was learned last. -/
  remembers : ml.Remembers h garbage es

/-! ### The entries in use -/

/-- What a call does to the entries in use. -/
def viewNext (l : List ((BitVec 48 × BitVec 16) × (ℤ × ℤ))) :
    MacEvent → List ((BitVec 48 × BitVec 16) × (ℤ × ℤ))
  | .learn now srcMac vlan srcPort _ =>
      if ethAddrIsMulticast srcMac then l
      else Lru.use macMax ((srcMac, vlan), ((srcPort.toNat : ℤ), now + 60)) l
  | .lookup _ _ => l
  | .run clock => unexpired clock 0 l
  | .flush => []

/-- The entries in use after some calls. -/
def viewAfter (es : List MacEvent) : List ((BitVec 48 × BitVec 16) × (ℤ × ℤ)) :=
  es.foldl viewNext []

variable {h : MacHash} {garbage : Fin macMax → MacEntry} {ml : MacLearning} {es : List MacEvent}
  {k : BitVec 48 × BitVec 16} {l : List ((BitVec 48 × BitVec 16) × (ℤ × ℤ))}

/-- A call keeps a table valid. -/
theorem Valid.next (hml : ml.Valid h) (e : MacEvent) :
    ∃ ml', ml.next h e = some ml' ∧ ml'.Valid h ∧ ml'.view = viewNext ml.view e := by
  cases e with
  | learn now srcMac vlan srcPort randomTag =>
    cases hmac : ethAddrIsMulticast srcMac with
    | true =>
      refine ⟨ml, ?_, hml, ?_⟩
      · rw [MacLearning.next, learn_of_multicast ml now hmac]
        rfl
      · rw [viewNext, if_pos hmac]
    | false =>
      obtain ⟨ml', tag, hlearn, hvalid, hview⟩ := hml.learn now hmac vlan srcPort randomTag
      refine ⟨ml', ?_, hvalid, ?_⟩
      · rw [MacLearning.next, hlearn]
        rfl
      · rw [hview, viewNext, hmac, if_neg (by simp)]
  | lookup dst vlan => exact ⟨ml, rfl, hml, rfl⟩
  | run clock => exact ⟨_, rfl, hml.run clock⟩
  | flush => exact ⟨_, rfl, hml.flush⟩

/-- The last one of some calls. -/
theorem after_append_singleton (h : MacHash) (garbage : Fin macMax → MacEntry) (es : List MacEvent)
    (e : MacEvent) :
    after h garbage (es ++ [e]) = (after h garbage es).bind fun ml => ml.next h e := by
  rw [after, List.foldlM_append]
  show (after h garbage es).bind (fun ml => [e].foldlM (MacLearning.next h) ml) = _
  refine congrArg _ (funext fun ml => ?_)
  rw [List.foldlM_cons]
  cases ml.next h e <;> rfl

/-- So do several, and what is in use is as it should be. -/
theorem exists_after (h : MacHash) (garbage : Fin macMax → MacEntry) (es : List MacEvent) :
    ∃ ml, after h garbage es = some ml ∧ ml.Valid h ∧ ml.view = viewAfter es := by
  induction es using List.reverseRecOn with
  | nil => exact ⟨_, rfl, valid_macLearningCreate h garbage, rfl⟩
  | append_singleton es e ih =>
    obtain ⟨ml, hafter, hvalid, hview⟩ := ih
    obtain ⟨ml', hnext, hvalid', hview'⟩ := hvalid.next e
    refine ⟨ml', ?_, hvalid', ?_⟩
    · rw [after_append_singleton, hafter]
      exact hnext
    · rw [hview', hview, viewAfter, viewAfter, List.foldl_append]
      rfl

theorem view_of_after (hafter : after h garbage es = some ml) :
    ml.Valid h ∧ ml.view = viewAfter es := by
  obtain ⟨ml', hafter', hspec⟩ := exists_after h garbage es
  rw [hafter, Option.some.injEq] at hafter'
  rw [hafter']
  exact hspec

theorem viewAfter_append_singleton (es : List MacEvent) (e : MacEvent) :
    viewAfter (es ++ [e]) = viewNext (viewAfter es) e := by
  rw [viewAfter, List.foldl_append]
  rfl

/-- Expired entries are freed at the front only. -/
theorem unexpired_suffix {κ : Type} (clock : ℕ → ℤ) (i : ℕ) (l : List (κ × (ℤ × ℤ))) :
    unexpired clock i l <:+ l := by
  induction l generalizing i with
  | nil => exact List.suffix_refl _
  | cons x l ih =>
    unfold unexpired
    split_ifs
    · exact (ih (i + 1)).trans (List.suffix_cons x l)
    · exact List.suffix_refl _

/-- An entry that is freed has expired. -/
theorem exists_le_of_notMem_unexpired {κ : Type} {clock : ℕ → ℤ} {i : ℕ} {l : List (κ × (ℤ × ℤ))}
    {x : κ × (ℤ × ℤ)} (hx : x ∈ l) (hgone : x ∉ unexpired clock i l) : ∃ j, x.2.2 ≤ clock j := by
  induction l generalizing i with
  | nil => exact absurd hx List.not_mem_nil
  | cons y l ih =>
    unfold unexpired at hgone
    split_ifs at hgone with hexpired
    · obtain rfl | hx := List.mem_cons.1 hx
      · exact ⟨i, hexpired⟩
      · exact ih hx hgone
    · exact absurd hx hgone

/-- A call uses the entry of the pair that it learns, or frees entries at the front. -/
theorem viewNext_cases (l : List ((BitVec 48 × BitVec 16) × (ℤ × ℤ))) (e : MacEvent) :
    (∃ k now, e.learned = some (k, now) ∧
      ∃ port, viewNext l e = Lru.use macMax (k, (port, now + 60)) l) ∨
    (e.learned = none ∧ viewNext l e <:+ l) := by
  cases e with
  | learn now srcMac vlan srcPort randomTag =>
    by_cases hmac : ethAddrIsMulticast srcMac = true
    · refine .inr ⟨if_pos hmac, ?_⟩
      rw [viewNext, if_pos hmac]
    · refine .inl ⟨(srcMac, vlan), now, if_neg hmac, srcPort.toNat, ?_⟩
      rw [viewNext, if_neg hmac]
  | lookup dst vlan => exact .inr ⟨rfl, List.suffix_refl _⟩
  | run clock => exact .inr ⟨rfl, unexpired_suffix clock 0 l⟩
  | flush => exact .inr ⟨rfl, List.nil_suffix⟩

/-! ### Capacity and order -/

theorem learnedPairs_append_singleton (es : List MacEvent) (e : MacEvent) :
    learnedPairs (es ++ [e]) = learnedPairs es ++ (e.learned.map Prod.fst).toList := by
  cases he : e.learned <;> simp [learnedPairs, he]

/-- Keys are different ones in their order, and there is room. -/
theorem viewAfter_spec (es : List MacEvent) :
    (Lru.keys (viewAfter es)).Nodup ∧ (viewAfter es).length ≤ macMax ∧
      (Lru.keys (viewAfter es)).Sublist (learnOrder es) := by
  induction es using List.reverseRecOn with
  | nil => exact ⟨List.nodup_nil, Nat.zero_le _, List.Sublist.refl _⟩
  | append_singleton es e ih =>
    obtain ⟨hnodup, hlen, horder⟩ := ih
    rw [viewAfter_append_singleton, learnOrder, learnedPairs_append_singleton, List.foldl_append]
    obtain ⟨k, now, hlearned, port, hview⟩ | ⟨hlearned, hsuffix⟩ := viewNext_cases (viewAfter es) e
    · rw [hview, hlearned]
      exact ⟨Lru.nodup_keys_use hnodup, Lru.length_use_le (by decide) hlen,
        Lru.keys_use_sublist horder⟩
    · have hsub := hsuffix.sublist
      rw [hlearned]
      exact ⟨hnodup.sublist (hsub.map _), hsub.length_le.trans hlen, (hsub.map _).trans horder⟩

/-- The entries in use are in the order of expiration if the clock does not go back. -/
theorem pairwise_viewAfter (es : List MacEvent) (htime : LearnsInTime es) :
    (viewAfter es).Pairwise (fun x y => x.2.2 ≤ y.2.2) ∧
      ∀ x ∈ viewAfter es, ∃ now ∈ (es.filterMap MacEvent.learned).map Prod.snd,
        x.2.2 = now + 60 := by
  induction es using List.reverseRecOn with
  | nil => exact ⟨List.Pairwise.nil, fun x hx => absurd hx List.not_mem_nil⟩
  | append_singleton es e ih =>
    unfold LearnsInTime at htime
    rw [List.filterMap_append, List.map_append, List.pairwise_append] at htime
    obtain ⟨hbefore, -, hlast⟩ := htime
    obtain ⟨hsorted, htimes⟩ := ih hbefore
    rw [viewAfter_append_singleton, List.filterMap_append, List.map_append]
    obtain ⟨k, now, hlearned, port, hview⟩ | ⟨hlearned, hsuffix⟩ := viewNext_cases (viewAfter es) e
    -- the pair that is learned expires last
    · have hnow : now ∈ ([e].filterMap MacEvent.learned).map Prod.snd := by simp [hlearned]
      rw [hview]
      refine ⟨Lru.pairwise_use hsorted fun x hx => ?_, fun x hx => ?_⟩
      · obtain ⟨earlier, hearlier, hexpires⟩ := htimes x hx
        have hle := hlast earlier hearlier now hnow
        show x.2.2 ≤ now + 60
        omega
      · obtain hx | hx := List.mem_append.1 hx
        · obtain ⟨earlier, hearlier, hexpires⟩ := htimes x (Lru.kept_sublist.subset hx)
          exact ⟨earlier, List.mem_append_left _ hearlier, hexpires⟩
        · exact ⟨now, List.mem_append_right _ hnow, by rw [List.mem_singleton.1 hx]⟩
    · refine ⟨hsorted.sublist hsuffix.sublist, fun x hx => ?_⟩
      obtain ⟨earlier, hearlier, hexpires⟩ := htimes x (hsuffix.subset hx)
      exact ⟨earlier, List.mem_append_left _ hearlier, hexpires⟩

/-! ### Memory -/

/-- A pair that has not been learned has no entry. -/
theorem notMem_keys_viewAfter (hnever : ∀ e ∈ es, ¬ e.Learns k) : k ∉ Lru.keys (viewAfter es) := by
  intro hmem
  have horder : ∀ es : List MacEvent, ∀ k ∈ learnOrder es, k ∈ learnedPairs es := by
    intro es
    unfold learnOrder
    generalize learnedPairs es = pairs
    induction pairs using List.reverseRecOn with
    | nil => exact fun k hk => hk
    | append_singleton pairs k' ih =>
      intro k hk
      rw [List.foldl_append] at hk
      obtain hk | hk := List.mem_append.1 hk
      · exact List.mem_append_left _ (ih k (List.mem_of_mem_filter hk))
      · exact List.mem_append_right _ hk
  have hlearned := horder es k ((viewAfter_spec es).2.2.subset hmem)
  obtain ⟨⟨k', now⟩, hmem', rfl⟩ := List.mem_map.1 hlearned
  obtain ⟨e, he, hnow⟩ := List.mem_filterMap.1 hmem'
  exact hnever e he ⟨now, hnow⟩

/-- A call that frees the entry of a pair has a reason. -/
theorem forgets_of_suffix {since : List MacEvent} {e : MacEvent}
    {x : (BitVec 48 × BitVec 16) × (ℤ × ℤ)} (hnone : e.learned = none) (hx : x ∈ l)
    (hgone : x.1 ∉ Lru.keys (viewNext l e)) : Forgets x.1 x.2.2 since e := by
  have hgone' : x ∉ viewNext l e := fun hmem => hgone (Lru.mem_keys_of_mem hmem)
  cases e with
  | learn now srcMac vlan srcPort randomTag =>
    have hmac : ethAddrIsMulticast srcMac = true := by
      by_contra hmac
      rw [MacEvent.learned, if_neg hmac] at hnone
      cases hnone
    rw [viewNext, if_pos hmac] at hgone'
    exact absurd hx hgone'
  | lookup dst vlan => exact absurd hx hgone'
  | run clock => exact exists_le_of_notMem_unexpired hx hgone'
  | flush => trivial

/-- After a call that does not learn a pair, its entry is there, or it is gone for a reason. -/
theorem recent_or_forgets {since : List MacEvent} {e : MacEvent}
    {x : (BitVec 48 × BitVec 16) × (ℤ × ℤ)} (hnodup : (Lru.keys l).Nodup)
    (hrecent : Lru.Recent (learnedPairs since).toFinset x l) (hnot : ¬ e.Learns x.1) :
    Lru.Recent (learnedPairs (since ++ [e])).toFinset x (viewNext l e) ∨
      x.1 ∉ Lru.keys (viewNext l e) ∧ Forgets x.1 x.2.2 since e := by
  obtain ⟨k, now, hlearned, port, hview⟩ | ⟨hlearned, hsuffix⟩ := viewNext_cases l e
  -- another pair is learned, which may push the entry out
  · have hne : k ≠ x.1 := by
      rintro rfl
      exact hnot ⟨now, hlearned⟩
    have hused : (learnedPairs (since ++ [e])).toFinset =
        insert k (learnedPairs since).toFinset := by
      rw [learnedPairs_append_singleton, hlearned]
      ext k'
      simp
    rw [hview, hused]
    refine (hrecent.use hnodup hne).imp_right fun ⟨hgone, hcard⟩ => ⟨hgone, ?_⟩
    cases e with
    | learn =>
      show macMax ≤ _
      rw [hused]
      exact hcard
    | lookup dst vlan => cases hlearned
    | run clock => cases hlearned
    | flush => cases hlearned
  -- nothing is learned, and entries only leave
  · have hused : learnedPairs (since ++ [e]) = learnedPairs since := by
      rw [learnedPairs_append_singleton, hlearned]
      exact List.append_nil _
    rw [hused]
    exact (hrecent.suffix hnodup hsuffix).imp_right fun hgone =>
      ⟨hgone, forgets_of_suffix hlearned hrecent.mem hgone⟩

/-- A call does not bring back a pair that it does not learn. -/
theorem notMem_keys_viewNext {e : MacEvent} (hgone : k ∉ Lru.keys l) (hnot : ¬ e.Learns k) :
    k ∉ Lru.keys (viewNext l e) := by
  obtain ⟨k', now, hlearned, port, hview⟩ | ⟨-, hsuffix⟩ := viewNext_cases l e
  · rw [hview, Lru.use, Lru.mem_keys_append, not_or]
    refine ⟨fun hmem => hgone ((Lru.kept_sublist.map _).subset hmem), fun hmem => hnot ⟨now, ?_⟩⟩
    rw [List.mem_singleton.1 hmem]
    exact hlearned
  · exact fun hmem => hgone ((hsuffix.sublist.map _).subset hmem)

/-- After some calls that do not learn a pair, its entry is there, or it is gone since one of them
that had a reason. -/
theorem recent_or_gone {before since : List MacEvent} {x : (BitVec 48 × BitVec 16) × (ℤ × ℤ)}
    (hstart : Lru.Recent ∅ x (viewAfter before)) (hnot : ∀ e ∈ since, ¬ e.Learns x.1) :
    Lru.Recent (learnedPairs since).toFinset x (viewAfter (before ++ since)) ∨
      x.1 ∉ Lru.keys (viewAfter (before ++ since)) ∧
        ∃ first e rest, since = first ++ e :: rest ∧ x ∈ viewAfter (before ++ first) ∧
          x.1 ∉ Lru.keys (viewAfter (before ++ (first ++ [e]))) ∧
            Forgets x.1 x.2.2 first e := by
  induction since using List.reverseRecOn with
  | nil =>
    left
    rw [List.append_nil]
    exact hstart
  | append_singleton since e ih =>
    have hlast : ¬ e.Learns x.1 := hnot e (List.mem_append_right _ List.mem_cons_self)
    have hview : viewAfter (before ++ (since ++ [e])) =
        viewNext (viewAfter (before ++ since)) e := by
      rw [← List.append_assoc, viewAfter_append_singleton]
    obtain hrecent | ⟨hgone, first, e', rest, rfl, hthere, hleft, hreason⟩ :=
      ih fun e' he' => hnot e' (List.mem_append_left _ he')
    · have hnodup := (viewAfter_spec (before ++ since)).1
      rw [hview]
      -- the last call may have been the one that made it go
      refine (recent_or_forgets hnodup hrecent hlast).imp_right fun ⟨hgone, hreason⟩ =>
        ⟨hgone, since, e, [], rfl, hrecent.mem, ?_, hreason⟩
      rw [hview]
      exact hgone
    · right
      -- a pair that is gone is not learned by the last call
      refine ⟨?_, first, e', rest ++ [e], by simp, hthere, hleft, hreason⟩
      rw [hview]
      exact notMem_keys_viewNext hgone hlast

theorem lookup_of_multicast (ml : MacLearning) {mac : BitVec 48}
    (hmac : ethAddrIsMulticast mac = true) (vlan : BitVec 16) :
    ml.lookup h mac vlan = ofppFlood := by
  unfold lookup lookupTag
  rw [if_pos hmac]

/-- An address without an entry is flooded, too. -/
theorem Valid.lookup_of_notMem (hml : ml.Valid h) {mac : BitVec 48} {vlan : BitVec 16}
    (hgone : (mac, vlan) ∉ Lru.keys ml.view) : ml.lookup h mac vlan = ofppFlood := by
  cases hmac : ethAddrIsMulticast mac with
  | true => exact ml.lookup_of_multicast hmac vlan
  | false =>
    rw [hml.lookup_eq hmac, Lru.find_eq_none_iff.2 hgone]
    rfl

/-- What lookups tell after some calls is what has been learned. -/
theorem remembers_after (hafter : after h garbage es = some ml) : ml.Remembers h garbage es := by
  obtain ⟨hml, hview⟩ := view_of_after hafter
  constructor
  · intro mac vlan hnever
    apply hml.lookup_of_notMem
    rw [hview]
    exact notMem_keys_viewAfter hnever
  · rintro before now mac vlan srcPort randomTag since rfl hmac hnot
    have happend : ∀ l : List MacEvent, before ++ .learn now mac vlan srcPort randomTag :: l =
        (before ++ [.learn now mac vlan srcPort randomTag]) ++ l := fun l => by simp
    -- the pair is the most recently used one when it is learned
    have hlearn : Lru.Recent ∅ ((mac, vlan), ((srcPort.toNat : ℤ), now + 60))
        (viewAfter (before ++ [.learn now mac vlan srcPort randomTag])) := by
      rw [viewAfter_append_singleton, viewNext, hmac, if_neg (by simp)]
      exact Lru.recent_use
    unfold Knows
    rw [happend] at hview
    rw [← keys_view, hview]
    obtain hrecent | ⟨hgone, first, e, rest, rfl, hthere, hleft, hreason⟩ :=
      recent_or_gone hlearn hnot
    · have hfind := (Lru.find_eq_some_iff (viewAfter_spec _).1).2 hrecent.mem
      refine .inl ⟨Lru.mem_keys_of_mem hrecent.mem, ?_⟩
      rw [hml.lookup_eq hmac, hview, hfind]
      show BitVec.ofInt 16 srcPort.toNat = srcPort
      rw [BitVec.ofInt_natCast, BitVec.ofNat_toNat, BitVec.setWidth_eq]
    · refine .inr ⟨hgone, hml.lookup_of_notMem (hview ▸ hgone), first, e, rest, ?_⟩
      obtain ⟨ml₁, hafter₁, hml₁, hview₁⟩ := exists_after h garbage
        (before ++ .learn now mac vlan srcPort randomTag :: first)
      obtain ⟨ml₂, hnext, hml₂, hview₂⟩ := hml₁.next e
      refine ⟨ml₁, ml₂, rfl, hafter₁, hnext, ?_, ?_, hreason⟩
      · rw [← keys_view, hview₁, happend]
        exact Lru.mem_keys_of_mem hthere
      · rw [← keys_view, hview₂, hview₁, ← viewAfter_append_singleton, happend]
        rwa [List.append_assoc]

theorem expirations_eq (ml : MacLearning) : ml.expirations = ml.view.map fun x => x.2.2 := by
  rw [expirations, view, List.map_map]
  rfl

/-- After any calls, a pair has at most one entry, there is room for the entries, they are in the
order in which their pairs have been learned last, and lookups find what has been learned. -/
theorem right_after (h : MacHash) (garbage : Fin macMax → MacEntry) (es : List MacEvent) :
    ∃ ml, after h garbage es = some ml ∧ ml.Right h garbage es := by
  obtain ⟨ml, hafter, hml, hview⟩ := exists_after h garbage es
  obtain ⟨hnodup, hlen, horder⟩ := viewAfter_spec es
  refine ⟨ml, hafter, hml, hml.nodup_pairs, ?_, ?_, fun htime => ?_, remembers_after hafter⟩
  · rw [← hview, view, List.length_map] at hlen
    exact hlen
  · rw [← keys_view, hview]
    exact horder
  · rw [expirations_eq, hview, List.pairwise_map]
    exact (pairwise_viewAfter es htime).1

/-- The clock is set back between two calls: the entry that expires first is behind the other. -/
theorem not_pairwise_expirations : ¬ ∀ (h : MacHash) (garbage : Fin macMax → MacEntry)
    (es : List MacEvent) (ml : MacLearning), after h garbage es = some ml →
      ml.expirations.Pairwise (· ≤ ·) := by
  intro hall
  let es : List MacEvent := [.learn 100 2 0 1 0, .learn 50 4 0 1 0]
  let h : MacHash := ⟨fun _ _ => 0, fun _ _ => 0⟩
  obtain ⟨ml, hafter, -, hview⟩ := exists_after h (fun _ => ⟨0, 0, 0, 0, 0⟩) es
  have hsorted := hall _ _ _ _ hafter
  have hexpirations : ml.expirations = [160, 110] := by
    rw [expirations_eq, hview]
    decide
  rw [hexpirations] at hsorted
  exact absurd hsorted (by decide)

end MacLearning

end OfAgent
