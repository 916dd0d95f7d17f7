import PipeScript.Proofs.Path.RoundTrip
import PipeScript.Proofs.Store.FailedWrite

/-! # Writes in place

A list or a dictionary that a variable holds is written where it is.  A write changes a value along
its path only (`along_setInside`), and what changes along a path is carried over to a shared value
as it is (`toValue_revise`).  So when `/setat` fails, the variables that hold its data hold what the
write has made of it up to the fault (`held_after_failed_setAt`): they are as they were if and only
if the write had changed nothing yet. -/

namespace PipeScript.Proofs.Store.LiveWrite

open PipeScript.Value PipeScript.Path
open PipeScript.Proofs.Value.Entries PipeScript.Proofs.Path.RoundTrip
open PipeScript.Proofs.Store.Sharing PipeScript.Proofs.Store.FailedWrite

/-! ### Values that differ along a path -/

/-- A value that differs from another one along a path only.  Inside a list the path goes on in the
item that its token names exactly; an item that it names for a write only may be any. -/
inductive Along : Path → Value → Value → Prop where
  | done (v new : Value) : Along [] v new
  | scalar (path : Path) (s : Scalar) (new : Value) : Along path (.scalar s) new
  | same (path : Path) (v : Value) : Along path v v
  | item {token : Value} {rest : Path} {items : List Value} {i : ℕ} {part : Value}
      (hwrite : writeIndex? token = .ok (some i))
      (hpart : Shared.namesExactly token i = true → ∀ child, items[i]? = some child →
        Along rest child part) :
      Along (token :: rest) (.list items) (.list (putItem items i part))
  | entry {token : Value} {rest : Path} {entries : Entries Value} {part : Value}
      (hpart : ∀ child, Entries.get? (.text token.asText) entries = some child →
        Along rest child part) :
      Along (token :: rest) (.dict entries)
        (.dict (Entries.insert (.text token.asText) part entries))

theorem exactIndex?_of_namesExactly {token : Value} {i : ℕ}
    (h : Shared.namesExactly token i = true) : exactIndex? token = .ok (some i) := by
  unfold Shared.namesExactly at h
  split at h
  · next j hexact =>
    obtain rfl : j = i := by simpa using h
    exact hexact
  · cases h

/-- What is put under a token differs along the path if the part there does. -/
theorem along_of_put {container token part updated : Value} {rest : Path}
    (hput : container.put token part = .ok updated)
    (hpart : ∀ child, container.exactPart? token = .ok (some child) → Along rest child part) :
    Along (token :: rest) container updated := by
  obtain ⟨items, i, rfl, hwrite, -, rfl⟩ | ⟨entries, rfl, rfl⟩ := put_cases hput
  · refine .item hwrite fun hname child hchild => hpart child ?_
    unfold exactPart?
    dsimp only
    rw [exactIndex?_of_namesExactly hname]
    exact congrArg Except.ok hchild
  · exact .entry fun child hchild => hpart child (congrArg Except.ok hchild)

theorem along_putThen {container token part : Value} {rest : Path} {descend : Value → Written}
    (hpart : ∀ child, container.exactPart? token = .ok (some child) →
      Along rest child (descend part).1) :
    Along (token :: rest) container (container.putThen token part descend).1 := by
  unfold putThen
  rcases hbefore : container.put token part with fault | before
  · exact .same _ _
  · obtain ⟨updated, hput⟩ := put_again hbefore (descend part).1
    change Along _ _ (before.putOrKeep token (descend part).1)
    rw [putOrKeep_of_put hput]
    rw [put_put hbefore] at hput
    exact along_of_put hput hpart

/-- **A write changes a value along its path only**, whether it fails or not. -/
theorem along_setInside (path : Path) (v value : Value) :
    Along path v (v.setInside path value).1 := by
  induction path generalizing v with
  | nil => exact .done _ _
  | cons token rest ih =>
    cases rest with
    | nil =>
      rw [setInside]
      rcases hput : v.put token value with fault | updated
      · exact .same _ _
      · exact along_of_put hput fun _ _ => .done _ _
    | cons next rest =>
      rw [setInside]
      split
      · exact .same _ _
      · next hpart =>
        refine along_putThen fun child hchild => ?_
        rw [hpart] at hchild
        cases hchild
      · next hpart =>
        refine along_putThen fun child hchild => ?_
        rw [hpart] at hchild
        cases hchild
        exact .scalar _ _ _
      · next s hpart =>
        rcases Json.parse? s with _ | part
        · exact .same _ _
        · refine along_putThen fun child hchild => ?_
          rw [hpart] at hchild
          cases hchild
          exact .scalar _ _ _
      · next part _ _ hpart =>
        change Along _ _ (v.putOrKeep token (part.setInside (next :: rest) value).1)
        rcases hput : v.put token (part.setInside (next :: rest) value).1 with fault | updated
        · unfold putOrKeep
          rw [hput]
          exact .same _ _
        · rw [putOrKeep_of_put hput]
          refine along_of_put hput fun child hchild => ?_
          rw [hpart] at hchild
          cases hchild
          exact ih part

/-! ### The value of a shared value -/

theorem itemValues_eq (items : List Shared) :
    Shared.itemValues items = items.map Shared.toValue := by
  induction items with
  | nil => rfl
  | cons item items ih => rw [Shared.itemValues, ih, List.map_cons]

theorem entryValues_eq (entries : Entries Shared) :
    Shared.entryValues entries = Entries.mapItems Shared.toValue entries := by
  induction entries with
  | nil => rfl
  | cons entry entries ih =>
    rw [Shared.entryValues, ih]
    rfl

theorem toValue_list (node : ℕ) (items : List Shared) :
    (Shared.list node items).toValue = .list (items.map Shared.toValue) := by
  rw [Shared.toValue, itemValues_eq]

theorem toValue_dict (node : ℕ) (entries : Entries Shared) :
    (Shared.dict node entries).toValue = .dict (Entries.mapItems Shared.toValue entries) := by
  rw [Shared.toValue, entryValues_eq]

/-- **Numbering containers** keeps the value. -/
theorem toValue_number (v : Value) (start : ℕ) : ((Shared.number v).run start).1.toValue = v := by
  induction v using value_induction generalizing start with
  | scalar s => rfl
  | list items ih =>
    have hitems : ∀ start,
        ((Shared.numberItems items).run start).1.map Shared.toValue = items := by
      induction items with
      | nil => exact fun _ => rfl
      | cons first rest ihrest =>
        intro start
        have hfirst := ih first (List.mem_cons_self ..) start
        have hrest := ihrest (fun item hitem => ih item (List.mem_cons_of_mem _ hitem))
          ((Shared.number first).run start).2
        exact congrArg₂ List.cons hfirst hrest
    exact (toValue_list start _).trans (congrArg _ (hitems (start + 1)))
  | dict entries ih =>
    have hentries : ∀ start,
        Entries.mapItems Shared.toValue ((Shared.numberEntries entries).run start).1 = entries := by
      induction entries with
      | nil => exact fun _ => rfl
      | cons first rest ihrest =>
        intro start
        obtain ⟨key, value⟩ := first
        have hfirst := ih (key, value) (List.mem_cons_self ..) start
        have hrest := ihrest (fun entry hentry => ih entry (List.mem_cons_of_mem _ hentry))
          ((Shared.number value).run start).2
        exact congrArg₂ List.cons (congrArg (Prod.mk key) hfirst) hrest
    exact (toValue_dict start _).trans (congrArg _ (hentries (start + 1)))

/-! ### Carrying a write over -/

/-- The value of what a plain value becomes. -/
theorem toValue_revise_plain (v new : Value) (path : Path) (start : ℕ) :
    (((Shared.plain v).revise new path).run start).1.toValue = new := by
  cases path with
  | nil => exact toValue_number new start
  | cons token rest =>
    rcases v with s | items | entries
    · rcases new with t | items | entries
      · rw [Shared.revise.eq_def]
        dsimp only
        by_cases hst : s = t
        · rw [if_pos hst, hst]
          rfl
        · rw [if_neg hst]
          rfl
      · exact toValue_number _ start
      · exact toValue_number _ start
    · exact toValue_number new start
    · exact toValue_number new start

/-- A list that agrees with another one but at an index, and goes on behind it as that one does. -/
theorem set_append_drop {items values : List Value} {i : ℕ} {value : Value}
    (hvalue : values[i]? = some value)
    (hkept : ∀ j < items.length, i ≠ j → values[j]? = items[j]?) :
    (items ++ values.drop items.length).set i value = values := by
  have hi : i < values.length := (List.getElem?_eq_some_iff.mp hvalue).1
  refine List.ext_getElem? fun j => ?_
  by_cases hij : i = j
  · subst hij
    rw [hvalue, List.getElem?_set_self]
    rw [List.length_append, List.length_drop]
    omega
  · rw [List.getElem?_set_ne hij]
    by_cases hj : j < items.length
    · rw [List.getElem?_append_left hj, hkept j hj hij]
    · rw [List.getElem?_append_right (by omega), List.getElem?_drop]
      congr 1
      omega

theorem map_toValue_padded (items : List Shared) (values : List Value) :
    (items ++ (values.drop items.length).map Shared.plain).map Shared.toValue =
      items.map Shared.toValue ++ values.drop (items.map Shared.toValue).length := by
  rw [List.map_append, List.map_map, List.length_map]
  exact congrArg _ (List.map_id' _)

/-- **One step in a list**: the list grows where the other one does, and the item that the write
reaches takes what the write has made of it. -/
theorem toValue_revise_list (node : ℕ) {items : List Shared} {values : List Value} {token : Value}
    {rest : Path}
    (hkept : ∀ j < items.length, writeIndex? token ≠ .ok (some j) →
      values[j]? = (items.map Shared.toValue)[j]?)
    (hthere : ∀ j < items.length, j < values.length)
    (hitem : ∀ i item value, writeIndex? token = .ok (some i) → items[i]? = some item →
      values[i]? = some value → Shared.namesExactly token i = true →
        ∀ start, ((item.revise value rest).run start).1.toValue = value) (start : ℕ) :
    (((Shared.list node items).revise (.list values) (token :: rest)).run start).1.toValue =
      .list values := by
  have hkeep : (∀ j < items.length, writeIndex? token ≠ .ok (some j)) →
      (Shared.list node (items ++ (values.drop items.length).map .plain)).toValue =
        .list values := by
    intro hnone
    have hprefix : items.map Shared.toValue <+: values := by
      refine List.prefix_iff_getElem?.mpr fun j hj => ?_
      rw [← List.getElem?_eq_getElem hj]
      rw [List.length_map] at hj
      exact hkept j hj (hnone j hj)
    rw [toValue_list, map_toValue_padded, List.prefix_iff_eq_append.mp hprefix]
  rw [Shared.revise.eq_def]
  dsimp only
  rcases hwrite : writeIndex? token with fault | _ | i
  · exact hkeep fun j _ h => by rw [hwrite] at h; cases h
  · exact hkeep fun j _ h => by rw [hwrite] at h; cases h
  · dsimp only
    split
    · next item value hpadded hvalue =>
      have hchild : (((if Shared.namesExactly token i then item else .plain .null).revise value
          rest).run start).1.toValue = value := by
        split_ifs with hname
        · by_cases hi : i < items.length
          · rw [List.getElem?_append_left hi] at hpadded
            exact hitem i item value hwrite hpadded hvalue hname start
          · rw [List.getElem?_append_right (by omega)] at hpadded
            obtain ⟨v, -, rfl⟩ := List.mem_map.mp (List.mem_of_getElem? hpadded)
            exact toValue_revise_plain v value rest start
        · exact toValue_revise_plain _ value rest start
      refine (toValue_list node _).trans (congrArg _ ?_)
      unfold StateT.run at hchild
      rw [List.map_set, hchild, map_toValue_padded]
      refine set_append_drop hvalue fun j hj hij => ?_
      rw [List.length_map] at hj
      exact hkept j hj fun h => hij (Option.some.inj (Except.ok.inj (hwrite.symm.trans h)))
    · next hnone =>
      refine hkeep fun j hj h => ?_
      obtain rfl : i = j := Option.some.inj (Except.ok.inj (hwrite.symm.trans h))
      have hi := hthere i hj
      refine hnone items[i] values[i] ?_ (List.getElem?_eq_getElem hi)
      rw [List.getElem?_append_left hj, List.getElem?_eq_getElem hj]

/-- **One step in a dictionary.** -/
theorem toValue_revise_dict (node : ℕ) {entries : Entries Shared} {values : Entries Value}
    {token : Value} {rest : Path}
    (hnone : Entries.get? (.text token.asText) values = none →
      values = Entries.mapItems Shared.toValue entries)
    (hsome : ∀ value, Entries.get? (.text token.asText) values = some value →
      values = Entries.insert (.text token.asText) value (Entries.mapItems Shared.toValue entries))
    (hitem : ∀ item value, Entries.get? (.text token.asText) entries = some item →
      Entries.get? (.text token.asText) values = some value →
        ∀ start, ((item.revise value rest).run start).1.toValue = value) (start : ℕ) :
    (((Shared.dict node entries).revise (.dict values) (token :: rest)).run start).1.toValue =
      .dict values := by
  rw [Shared.revise.eq_def]
  dsimp only
  rcases hvalue : Entries.get? (.text token.asText) values with _ | value
  · exact (toValue_dict node entries).trans (congrArg _ (hnone hvalue).symm)
  · dsimp only
    have hchild : ((((Entries.get? (.text token.asText) entries).getD (.plain .null)).revise value
        rest).run start).1.toValue = value := by
      rcases hget : Entries.get? (.text token.asText) entries with _ | item
      · exact toValue_revise_plain _ value rest start
      · exact hitem item value hget hvalue start
    refine (toValue_dict node _).trans (congrArg _ ?_)
    unfold StateT.run at hchild
    rw [mapItems_insert, hchild]
    exact (hsome value hvalue).symm

theorem toValue_revise_self (old : Shared) (path : Path) (start : ℕ) :
    ((old.revise old.toValue path).run start).1.toValue = old.toValue := by
  induction path generalizing old start with
  | nil => exact toValue_number _ start
  | cons token rest ih =>
    rcases old with v | ⟨node, items⟩ | ⟨node, entries⟩
    · exact toValue_revise_plain v v _ start
    · rw [toValue_list]
      refine toValue_revise_list node (fun _ _ _ => rfl) (by simp) ?_ start
      intro i item value _ hitem hvalue _ start
      rw [List.getElem?_map, hitem, Option.map_some] at hvalue
      obtain rfl := Option.some.inj hvalue
      exact ih item start
    · rw [toValue_dict]
      refine toValue_revise_dict node (fun _ => rfl) ?_ ?_ start
      · intro value hvalue
        rw [insert_of_get? hvalue]
      · intro item value hitem hvalue start
        rw [get?_mapItems, hitem, Option.map_some] at hvalue
        obtain rfl := Option.some.inj hvalue
        exact ih item start

/-- **A write inside a shared value** is the write inside its value. -/
theorem toValue_revise {old : Shared} {new : Value} {path : Path}
    (h : Along path old.toValue new) (start : ℕ) :
    ((old.revise new path).run start).1.toValue = new := by
  generalize hv : old.toValue = v at h
  induction h generalizing old start with
  | done v new => exact toValue_number new start
  | scalar path s new =>
    rcases old with v | ⟨node, items⟩ | ⟨node, entries⟩
    · exact toValue_revise_plain v new path start
    · rw [toValue_list] at hv
      cases hv
    · rw [toValue_dict] at hv
      cases hv
  | same path v =>
    rw [← hv]
    exact toValue_revise_self old path start
  | @item token rest items i part hwrite hpart ih =>
    rcases old with v | ⟨node, shared⟩ | ⟨node, entries⟩
    · exact toValue_revise_plain v _ _ start
    · rw [toValue_list] at hv
      obtain rfl := Value.list.inj hv
      refine toValue_revise_list node ?_ ?_ ?_ start
      · intro j hj hne
        refine getElem?_putItem_ne (by simpa using hj) ?_ part
        rintro rfl
        exact hne hwrite
      · intro j hj
        rw [length_putItem, List.length_map]
        omega
      · intro k item value hwrite' hitem hvalue hname start
        obtain rfl : i = k := Option.some.inj (Except.ok.inj (hwrite.symm.trans hwrite'))
        rw [getElem?_putItem] at hvalue
        obtain rfl := Option.some.inj hvalue
        exact ih hname item.toValue (by rw [List.getElem?_map, hitem]; rfl) start rfl
    · rw [toValue_dict] at hv
      cases hv
  | @entry token rest entries part hpart ih =>
    rcases old with v | ⟨node, items⟩ | ⟨node, shared⟩
    · exact toValue_revise_plain v _ _ start
    · rw [toValue_list] at hv
      cases hv
    · rw [toValue_dict] at hv
      obtain rfl := Value.dict.inj hv
      refine toValue_revise_dict node ?_ ?_ ?_ start
      · intro hnone
        rw [get?_insert_text] at hnone
        cases hnone
      · intro value hvalue
        rw [get?_insert_text] at hvalue
        rw [Option.some.inj hvalue]
      · intro item value hitem hvalue start
        rw [get?_insert_text] at hvalue
        obtain rfl := Option.some.inj hvalue
        exact ih item.toValue (by rw [get?_mapItems, hitem]; rfl) start rfl

/-! ### What variables hold after a write in place -/

theorem adopt_list (node : ℕ) (items after : List Shared) :
    (Shared.list node after).adopt (.list node items) = .list node after := by
  rw [Shared.adopt, Shared.find?, if_pos rfl, Option.getD_some]

theorem adopt_dict (node : ℕ) (entries after : Entries Shared) :
    (Shared.dict node after).adopt (.dict node entries) = .dict node after := by
  rw [Shared.adopt, Shared.find?, if_pos rfl, Option.getD_some]

/-- A container that is written inside keeps its number. -/
theorem adopt_revise_self {old : Shared} (hlive : ∀ v, old ≠ .plain v) {new : Value}
    {token : Value} {rest : Path} (h : Along (token :: rest) old.toValue new) (start : ℕ) :
    ((old.revise new (token :: rest)).run start).1.adopt old =
      ((old.revise new (token :: rest)).run start).1 := by
  rcases old with v | ⟨node, items⟩ | ⟨node, entries⟩
  · exact absurd rfl (hlive v)
  · obtain ⟨values, rfl⟩ : ∃ values, new = .list values := by
      rw [toValue_list] at h
      cases h with
      | same => exact ⟨_, rfl⟩
      | item _ _ => exact ⟨_, rfl⟩
    obtain ⟨after, hafter⟩ : ∃ after, (((Shared.list node items).revise (.list values)
        (token :: rest)).run start).1 = .list node after := by
      rw [Shared.revise.eq_def]
      dsimp only
      split
      · exact ⟨_, rfl⟩
      · exact ⟨_, rfl⟩
      · split
        · exact ⟨_, rfl⟩
        · exact ⟨_, rfl⟩
    rw [hafter, adopt_list]
  · obtain ⟨values, rfl⟩ : ∃ values, new = .dict values := by
      rw [toValue_dict] at h
      cases h with
      | same => exact ⟨_, rfl⟩
      | entry _ => exact ⟨_, rfl⟩
    obtain ⟨after, hafter⟩ : ∃ after, (((Shared.dict node entries).revise (.dict values)
        (token :: rest)).run start).1 = .dict node after := by
      rw [Shared.revise.eq_def]
      dsimp only
      split
      · exact ⟨_, rfl⟩
      · exact ⟨_, rfl⟩
    rw [hafter, adopt_dict]

/-- **A shared value after a write inside it** is what the write makes of its value. -/
theorem toValue_adopt_setAt {old : Shared} (hlive : ∀ v, old ≠ .plain v) {start : ℕ}
    (hbelow : Below start old) (path : Path) (value : Value) :
    (((old.revise (old.toValue.setAt path value).1 path).run start).1.adopt old).toValue =
      (old.toValue.setAt path value).1 := by
  cases path with
  | nil =>
    have hkept : (old.toValue.setAt [] value).1 = old.toValue := by
      rcases old.toValue with (_ | _ | _ | _ | _) | _ | _ <;> rfl
    have hfresh : Apart ((Shared.number old.toValue).run start).1 old := by
      intro node hnode hold
      obtain hfalse | ⟨hle, -⟩ := (builds_number old.toValue start).2 node hnode
      · exact hfalse
      · exact Nat.not_lt.mpr hle (hbelow node hold)
    rw [hkept]
    exact congrArg Shared.toValue (adopt_of_apart hfresh)
  | cons token rest =>
    have hnull : old.toValue ≠ .null := by
      intro hnull
      rcases old with v | ⟨node, items⟩ | ⟨node, entries⟩
      · exact hlive v rfl
      · rw [toValue_list] at hnull
        cases hnull
      · rw [toValue_dict] at hnull
        cases hnull
    rw [setAt_eq_setInside hnull token rest value]
    have halong := along_setInside (token :: rest) old.toValue value
    rw [adopt_revise_self hlive halong, toValue_revise halong]

/-- A write inside a shared value brings all variables up to date. -/
theorem revise_of_live {old : Shared} (hlive : ∀ v, old ≠ .plain v) (store : Store) (new : Value)
    (path : Path) :
    (store.revise old new path).locals = Entries.mapItems
        ((old.revise new path).run store.nextNode).1.adopt store.locals ∧
      (store.revise old new path).globals = Entries.mapItems
        ((old.revise new path).run store.nextNode).1.adopt store.globals := by
  rcases old with v | ⟨node, items⟩ | ⟨node, entries⟩
  · exact absurd rfl (hlive v)
  · exact ⟨rfl, rfl⟩
  · exact ⟨rfl, rfl⟩

theorem getD_mapItems (f : Shared → Shared) (hf : ∀ v, f (.plain v) = .plain v) (key : Scalar)
    (entries : Entries Shared) :
    (Entries.get? key (Entries.mapItems f entries)).getD (.plain .null) =
      f ((Entries.get? key entries).getD (.plain .null)) := by
  rw [get?_mapItems]
  rcases Entries.get? key entries with _ | item
  · exact (hf .null).symm
  · rfl

/-- **What a failed write leaves** in the variables that hold its data: what it has made of the data
up to its fault. -/
theorem held_after_failed_setAt {inv : Invocation} {m after : Machine} {fault : Fault} {path : Path}
    (h : Command.setAt inv m = (.error fault, after)) (hstore : Numbered m.store)
    (hpath : Path.ofIndex (inv.argumentValue "index") = .ok path)
    (hlive : ∀ v, target inv m.store ≠ .plain v) :
    (∀ name, m.store.readLocal name = target inv m.store →
        (after.store.readLocal name).toValue =
          ((target inv m.store).toValue.setAt path (decodedText inv.value)).1) ∧
      ∀ name, m.store.readGlobal name = target inv m.store →
        (after.store.readGlobal name).toValue =
          ((target inv m.store).toValue.setAt path (decodedText inv.value)).1 := by
  have hbelow : Below m.store.nextNode (target inv m.store) := below_found hstore _ _ _
  obtain rfl : after = { m with store := written inv path m.store } := by
    rcases hset : ((target inv m.store).toValue.setAt path (decodedText inv.value)).2 with _ | stuck
    · obtain ⟨_, hcase⟩ | ⟨_, hcase⟩ := setAt_of_success hpath m hset
      · exact (Prod.mk.inj (h.symm.trans hcase)).2
      · cases h.symm.trans hcase
    · exact (Prod.mk.inj (h.symm.trans (setAt_of_fault hpath m hset))).2
  constructor
  · intro name hname
    unfold written Store.readLocal
    rw [(revise_of_live hlive _ _ _).1, getD_mapItems _ fun _ => rfl]
    unfold Store.readLocal at hname
    rw [hname]
    exact toValue_adopt_setAt hlive hbelow path _
  · intro name hname
    unfold written Store.readGlobal
    rw [(revise_of_live hlive _ _ _).2, getD_mapItems _ fun _ => rfl]
    unfold Store.readGlobal at hname
    rw [hname]
    exact toValue_adopt_setAt hlive hbelow path _

end PipeScript.Proofs.Store.LiveWrite
