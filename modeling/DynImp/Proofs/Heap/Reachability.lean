import DynImp.Proofs.Heap.Equality

/-!
# Searching decides reachability

Whether a search for a list ends, and with which answer, depends on the paths of the heap alone.

* **Layer A: cycles.** A search that finds nothing ends only if it meets no cycle.  So all
  searches in a heap end exactly if the heap is acyclic.
* **Layer B: twins.** Of two different lists with equal contents neither contains the other.
* **Layer C: paths.** In an acyclic heap a search finds a list exactly if a path of elements leads
  there.
* **Layer D: stores.** So an element may be stored exactly if this makes no cycle.
-/

namespace DynImp

namespace Heap

variable {h : Heap} {v : Value} {target : ListId} {found : Bool}

/-! ## §1 Cycles -/

/-- A search in vain has gone along all paths, and none of them comes back. -/
theorem Searches.not_reaches_self {id a : ListId} (hsearch : h.Searches target (.list id) false)
    (hpath : Relation.ReflTransGen h.HasElement id a) : ¬ h.Reaches a a := by
  generalize hv : Value.list id = v, hfound : false = found at hsearch
  induction hsearch generalizing id with
  | scalar => cases hv
  | self | hit => cases hfound
  | miss _ _ ih =>
      obtain rfl := Value.list.inj hv
      intro hcycle
      -- The path starts with an element of the list; if it is empty, the cycle does.
      obtain ⟨b, hb, hba⟩ := Relation.TransGen.head'_iff.mp (hcycle.trans_right hpath)
      exact ih (.list b) hb hba rfl rfl hcycle

/-- **No end.** Where a cycle can be reached and the list cannot, there is no answer. -/
theorem not_searches_of_cycle {id a : ListId} (hnot : ¬ h.Contains (.list id) target)
    (hpath : Relation.ReflTransGen h.HasElement id a) (hcycle : h.Reaches a a) :
    ¬ h.Searches target (.list id) found := by
  intro hsearch
  cases found with
  | true => exact hnot (hsearch.eq_true_iff.mp rfl)
  | false => exact hsearch.not_reaches_self hpath hcycle

/-- **Acyclic heaps** are the heaps in which every search ends. -/
theorem Closed.acyclic_iff_searches (hclosed : h.Closed) :
    h.Acyclic ↔ ∀ v, h.Holds v → ∀ target, ∃ found, h.Searches target v found := by
  constructor
  · intro hacyclic v hv target
    obtain ⟨found, hanswer, -⟩ := hacyclic.exists_contains? hclosed hv target
    exact ⟨found, searches_of_containsWithin hanswer⟩
  · intro hends a hcycle
    obtain ⟨b, hab, -⟩ := Relation.TransGen.head'_iff.mp hcycle
    -- A list that is not there cannot be found.
    have hnot : ¬ h.Contains (.list a) h.lists.size := by
      rw [contains_list]
      rintro (heq | hreach)
      · exact absurd heq (Nat.ne_of_lt hab.lt)
      · obtain ⟨c, -, hc⟩ := Relation.TransGen.tail'_iff.mp hreach
        exact Nat.lt_irrefl _ (hclosed c _ hc _ rfl)
    have ha : h.Holds (.list a) := by
      rintro _ ⟨⟩
      exact hab.lt
    obtain ⟨found, hsearch⟩ := hends (.list a) ha h.lists.size
    exact not_searches_of_cycle hnot .refl hcycle hsearch

/-! ## §2 Twins -/

/-- **Equal lists do not reach each other.** The path would start with an element that reaches its
own twin, an element of the second list; so ranks would go down forever. -/
theorem Acyclic.not_reaches_of_equal? (hacyclic : h.Acyclic) (hclosed : h.Closed) {a b : ListId}
    (ha : h.Holds (.list a)) (hequal : h.equal? (.list a) (.list b) = some true) :
    ¬ h.Reaches a b := by
  obtain ⟨rank, hrank, -⟩ := hacyclic.exists_rank hclosed
  induction hn : rank a using Nat.strongRecOn generalizing a b with
  | ind n ih =>
      intro hreach
      obtain ⟨c, hac, hcb⟩ := Relation.TransGen.head'_iff.mp hreach
      rw [hacyclic.equal?_list hclosed ha] at hequal
      obtain ⟨_, hd, hcd⟩ := exists_equal_item hequal hac
      obtain ⟨d, rfl⟩ := exists_list_of_equal? hcd
      have hreach' : h.Reaches c d := Relation.TransGen.tail' hcb hd
      exact ih (rank c) (hn ▸ hrank a c hac) (hclosed a _ hac) hcd rfl hreach'

/-- **Identity decides.** A list does not contain another one that is equal to it. -/
theorem Acyclic.not_contains_of_equal? (hacyclic : h.Acyclic) (hclosed : h.Closed)
    (hv : h.Holds v) (hequal : h.equal? v (.list target) = some true) (hne : v ≠ .list target) :
    ¬ h.Contains v target := by
  rintro ⟨a, rfl, rfl | hreach⟩
  · exact hne rfl
  · exact hacyclic.not_reaches_of_equal? hclosed hv hequal hreach

/-! ## §3 Paths -/

/-- **Searching decides reachability.** In an acyclic heap, however lists are nested and shared, the
search for a list in a value ends without a bound on the depth, and `contains?` gives its answer.
The answer is positive exactly if the value is a list from which a path of elements leads to the one
that is searched for; equal contents do not count.  That the heap is closed and holds the value only
says that list values name lists of this heap. -/
theorem Acyclic.search_decides_reachability (hacyclic : h.Acyclic) (hclosed : h.Closed)
    (hv : h.Holds v) (target : ListId) :
    ∃ found, h.Searches target v found ∧ h.contains? v target = some found ∧
      (found = true ↔ ∃ id, v = .list id ∧ Relation.ReflTransGen h.HasElement id target) ∧
      (h.equal? v (.list target) = some true → v ≠ .list target → found = false) := by
  obtain ⟨found, hanswer, hfound⟩ := hacyclic.exists_contains? hclosed hv target
  refine ⟨found, searches_of_containsWithin hanswer, hanswer, ?path, ?identity⟩
  case path => rw [hfound, contains_iff_path]
  case identity =>
    intro hequal hne
    rw [← Bool.not_eq_true, hfound]
    exact hacyclic.not_contains_of_equal? hclosed hv hequal hne

/-- A heap with the lists `[1]`, another `[1]`, one that has the first of them twice, and one that
has 0, the third and the first. -/
def sharing : Heap :=
  ⟨#[[.integer 1], [.integer 1], [.list 0, .list 0], [.integer 0, .list 2, .list 0]]⟩

/-- The last list leads to the first one, by several paths, and not to the twin of the first. -/
theorem sharing_searched :
    Relation.ReflTransGen sharing.HasElement 3 0 ∧ sharing.contains? (.list 3) 0 = some true ∧
      ¬ Relation.ReflTransGen sharing.HasElement 3 1 ∧
      sharing.contains? (.list 3) 1 = some false ∧
      sharing.equal? (.list 0) (.list 1) = some true ∧
      sharing.contains? (.list 0) 1 = some false := by
  have halloc : ∀ {h : Heap} (items), h.Acyclic ∧ h.Closed → (∀ v ∈ items, h.Holds v) →
      (h.alloc items).2.Acyclic ∧ (h.alloc items).2.Closed :=
    fun _ hh hitems => ⟨hh.1.alloc hh.2 hitems, hh.2.alloc hitems⟩
  have hfirst := halloc [.integer 1] ⟨Heap.empty_acyclic, Heap.empty_closed⟩ (by decide)
  have hsecond := halloc [.integer 1] hfirst (by decide)
  have hthird := halloc [.list 0, .list 0] hsecond (by decide)
  obtain ⟨hacyclic, hclosed⟩ : sharing.Acyclic ∧ sharing.Closed :=
    halloc [.integer 0, .list 2, .list 0] hthird (by decide)
  refine ⟨?reached, rfl, ?unreached, rfl, rfl, ?twin⟩
  case reached =>
    obtain ⟨found, -, hanswer, hpath, -⟩ :=
      hacyclic.search_decides_reachability hclosed (v := .list 3) (by decide) 0
    obtain ⟨_, ⟨⟩, hreach⟩ := hpath.mp (Option.some.inj hanswer).symm
    exact hreach
  case unreached =>
    obtain ⟨found, -, hanswer, hpath, -⟩ :=
      hacyclic.search_decides_reachability hclosed (v := .list 3) (by decide) 1
    intro hreach
    have hfound : found = true := hpath.mpr ⟨3, rfl, hreach⟩
    exact Bool.false_ne_true ((Option.some.inj hanswer).trans hfound)
  case twin =>
    obtain ⟨found, -, hanswer, -, hidentity⟩ :=
      hacyclic.search_decides_reachability hclosed (v := .list 0) (by decide) 1
    rw [hanswer, hidentity rfl (by decide)]

/-! ## §4 Stores -/

/-- A path to a list does not use the elements of that list before it arrives, so it stays a path
when one of them is replaced. -/
theorem path_setItem {id : ListId} (position : Nat) (v : Value) {a : ListId}
    (hpath : Relation.ReflTransGen h.HasElement a id) :
    Relation.ReflTransGen (h.setItem id position v).HasElement a id := by
  induction hpath using Relation.ReflTransGen.head_induction_on with
  | refl => exact .refl
  | @head a b hab _ ih =>
      by_cases ha : a = id
      · rw [ha]
      · apply Relation.ReflTransGen.head ?_ ih
        rw [HasElement, items_setItem, if_neg ha]
        exact hab

/-- **Exactly the cycles are refused.** Storing an element keeps the heap acyclic if and only if the
element does not contain the list it goes into. -/
theorem Acyclic.setItem_acyclic_iff (hacyclic : h.Acyclic) (hclosed : h.Closed) (hv : h.Holds v)
    {id : ListId} {position : Nat} (hposition : position < (h.items id).length) :
    (h.setItem id position v).Acyclic ↔ h.contains? v id = some false := by
  constructor
  · intro hnew
    obtain ⟨found, hanswer, hfound⟩ := hacyclic.exists_contains? hclosed hv id
    cases found with
    | false => exact hanswer
    | true =>
        obtain ⟨a, rfl, hpath⟩ := contains_iff_path.mp (hfound.mp rfl)
        -- The list has the new element, which still leads to the list.
        have helement : (h.setItem id position (.list a)).HasElement id a := by
          rw [HasElement, items_setItem, if_pos rfl]
          exact List.mem_set hposition _
        exact absurd (Relation.TransGen.head' helement (path_setItem position _ hpath)) (hnew id)
  · exact hacyclic.setItem

end Heap

end DynImp
