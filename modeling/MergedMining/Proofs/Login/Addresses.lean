import Mathlib.Data.List.Forall2
import MergedMining.Login

/-!
# Addresses belong to one network

The leading characters of an address tell the network and, on the main networks, the chain (`accepts_unique`);
the test networks of the two chains share some of them.  A login that is checked against a list of chains has at
each place an address of that chain and network (`check_eq_ok_iff`), so it passes neither with its addresses in
another order nor on another network (`check_unique`).
-/

namespace MergedMining

/-- The other one of the two networks. -/
def Network.other : Network → Network
  | .main => .test
  | .test => .main

theorem Network.other_ne (network : Network) : network.other ≠ network := by
  cases network <;> nofun

namespace Chain

/-! ### Leading characters -/

/-- The characters that addresses of the chain on the network begin with. -/
def leads : Chain → Network → List Char
  | .dogecoin, .main => ['D', 'A', '9']
  | .dogecoin, .test => ['n', 'm', '2']
  | .litecoin, .main => ['L', 'M', '3', 'l']
  | .litecoin, .test => ['m', 'n', '2', 'Q', 't']

private theorem mem_of_isLegacy {leading cs : List Char} (h : isLegacy leading cs = true) :
    ∃ c ∈ leading, cs.head? = some c := by
  cases cs with
  | nil => simp [isLegacy] at h
  | cons c rest =>
    simp only [isLegacy, Bool.and_eq_true, List.contains_iff_mem] at h
    exact ⟨c, h.1.1, rfl⟩

private theorem head?_of_isWitness {c : Char} {lead cs : List Char} (h : isWitness (c :: lead) cs = true) :
    cs.head? = some c := by
  simp only [isWitness, Bool.and_eq_true] at h
  obtain ⟨rest, rfl⟩ := List.isPrefixOf_iff_prefix.1 h.1.1
  rfl

theorem mem_leads_of_acceptsChars {chain : Chain} {network : Network} {cs : List Char}
    (h : chain.acceptsChars network cs = true) : ∃ c ∈ chain.leads network, cs.head? = some c := by
  cases chain <;> cases network
  case dogecoin.main => exact mem_of_isLegacy h
  case dogecoin.test => exact mem_of_isLegacy h
  case litecoin.main =>
    rcases Bool.or_eq_true_iff.1 h with hlegacy | hwitness
    · obtain ⟨c, hc, hhead⟩ := mem_of_isLegacy hlegacy
      exact ⟨c, List.mem_append_left ['l'] hc, hhead⟩
    · exact ⟨'l', by simp [leads], head?_of_isWitness hwitness⟩
  case litecoin.test =>
    rcases Bool.or_eq_true_iff.1 h with hlegacy | hwitness
    · obtain ⟨c, hc, hhead⟩ := mem_of_isLegacy hlegacy
      exact ⟨c, List.mem_append_left ['t'] hc, hhead⟩
    · exact ⟨'t', by simp [leads], head?_of_isWitness hwitness⟩

/-- A text is an address of one network, and of one chain unless it is one of the test networks. -/
theorem accepts_unique {chain chain' : Chain} {network network' : Network} {s : String}
    (h : chain.accepts network s = true) (h' : chain'.accepts network' s = true) :
    network = network' ∧ (network = .main → chain = chain') := by
  obtain ⟨c, hc, hhead⟩ := mem_leads_of_acceptsChars h
  obtain ⟨c', hc', hhead'⟩ := mem_leads_of_acceptsChars h'
  obtain rfl : c = c' := by simpa [hhead] using hhead'
  have hdisjoint : ∀ chain chain' network network', ∀ c ∈ leads chain network, c ∈ leads chain' network' →
      network = network' ∧ (network = .main → chain = chain') := by
    intro chain chain' network network'
    cases chain <;> cases chain' <;> cases network <;> cases network' <;> simp [leads]
  exact hdisjoint chain chain' network network' c hc hc'

end Chain

/-! ### Logins -/

namespace Login

variable {l : Login} {chains chains' : List (Chain × Network)}

private theorem checkAddresses_eq_ok_iff {addresses : List String} (hlength : addresses.length = chains.length) :
    checkAddresses addresses chains = .ok () ↔
      List.Forall₂ (fun address c => c.1.accepts c.2 address = true) addresses chains := by
  induction addresses generalizing chains with
  | nil =>
    obtain rfl : chains = [] := List.length_eq_zero_iff.1 hlength.symm
    simp [checkAddresses]
  | cons address addresses ih =>
    obtain ⟨⟨chain, network⟩, rest, rfl⟩ := List.exists_cons_of_length_eq_add_one hlength.symm
    have hrest : addresses.length = rest.length := by simpa using hlength
    rw [List.forall₂_cons, ← ih hrest, checkAddresses]
    by_cases haccepts : chain.accepts network address = true
    · simp [haccepts]
    · simp [haccepts]

/-- A login passes if it has an address of each of the chains, in their order. -/
theorem check_eq_ok_iff :
    l.check chains = .ok () ↔ List.Forall₂ (fun address c => c.1.accepts c.2 address = true) l.addresses chains := by
  unfold check
  by_cases hlength : l.addresses.length = chains.length
  · rw [if_neg (not_not.2 hlength), checkAddresses_eq_ok_iff hlength]
  · rw [if_pos hlength]
    exact iff_of_false nofun fun h => hlength h.length_eq

/-- What a login passes for is determined by the chains. -/
theorem check_unique (h : l.check chains = .ok ()) (h' : l.check chains' = .ok ())
    (hchains : chains.map Prod.fst = chains'.map Prod.fst) : chains = chains' := by
  rw [check_eq_ok_iff] at h h'
  generalize l.addresses = addresses at h h'
  induction h generalizing chains' with
  | nil =>
    cases h'
    rfl
  | @cons address c addresses chains haccepts _ ih =>
    cases h' with
    | @cons _ c' _ chains' haccepts' hrest' =>
      obtain ⟨hchain, hrest⟩ := List.cons_eq_cons.1 hchains
      obtain ⟨hnetwork, -⟩ := Chain.accepts_unique haccepts haccepts'
      rw [Prod.ext hchain hnetwork, ih hrest hrest']

/-- Chains, one of them on its other network. -/
def flipAt (chains : List (Chain × Network)) (i : Nat) : List (Chain × Network) :=
  chains.modify i fun c => (c.1, c.2.other)

private theorem map_fst_flipAt (chains : List (Chain × Network)) (i : Nat) :
    (flipAt chains i).map Prod.fst = chains.map Prod.fst := by
  unfold flipAt
  refine List.ext_getElem (by simp) fun j _ _ => ?_
  by_cases hij : i = j <;> simp [hij]

private theorem flipAt_ne (i : Fin chains.length) : flipAt chains i ≠ chains := by
  intro heq
  have hnetwork := congrArg (fun cs => cs[i.val]?.map Prod.snd) heq
  simp [flipAt] at hnetwork
  exact Network.other_ne _ hnetwork

/-- No text is an address of both main networks, or of both networks of a chain.  So a login with an address of
each main network does not pass with the two exchanged, and no login passes both for some chains and for the
same chains with one of them on its other network. -/
theorem no_address_mistaken :
    (∀ s, ¬ (Chain.litecoin.accepts .main s = true ∧ Chain.dogecoin.accepts .main s = true)) ∧
    (∀ (chain : Chain) s, ¬ (chain.accepts .main s = true ∧ chain.accepts .test s = true)) ∧
    (∀ l : Login, ¬ (l.check [(.litecoin, .main), (.dogecoin, .main)] = .ok () ∧
      { l with addresses := l.addresses.reverse }.check [(.litecoin, .main), (.dogecoin, .main)] = .ok ())) ∧
    ∀ (l : Login) (chains : List (Chain × Network)) (i : Fin chains.length),
      ¬ (l.check chains = .ok () ∧ l.check (flipAt chains i) = .ok ()) := by
  refine ⟨?chain, ?network, ?swapped, ?flipped⟩
  case chain =>
    rintro s ⟨h, h'⟩
    exact nomatch (Chain.accepts_unique h h').2 rfl
  case network =>
    rintro chain s ⟨h, h'⟩
    exact nomatch (Chain.accepts_unique h h').1
  case swapped =>
    rintro ⟨addresses, rig⟩ ⟨h, h'⟩
    rw [check_eq_ok_iff] at h h'
    obtain ⟨a, _, hlitecoin, hrest, rfl⟩ := List.forall₂_cons_right_iff.1 h
    obtain ⟨b, _, _, hnil, rfl⟩ := List.forall₂_cons_right_iff.1 hrest
    obtain rfl := List.forall₂_nil_right_iff.1 hnil
    -- the first address is the second one after the exchange
    obtain ⟨_, hrest'⟩ := List.forall₂_cons.1 h'
    obtain ⟨hdogecoin, _⟩ := List.forall₂_cons.1 hrest'
    exact nomatch (Chain.accepts_unique hlitecoin hdogecoin).2 rfl
  case flipped =>
    rintro l chains i ⟨h, h'⟩
    exact flipAt_ne i (check_unique h' h (map_fst_flipAt chains i))

/-- A login as the two main networks have it. -/
example : (Login.mk ["LM2WMpR1Rp6j3Sa59cMXMs1SPzj9eXpGc1", "DH5yaieqoZN36fDVciNyRueRGvGLR3mr7L"] "rig1").check
    [(.litecoin, .main), (.dogecoin, .main)] = .ok () := by decide +kernel

end Login

end MergedMining
