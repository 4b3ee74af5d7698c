import RpcForge.Document.Server
import RpcForge.Proofs.Text.Parts
import RpcForge.Proofs.Text.Substitution

/-!
# Addresses of servers

The variables of a server take their turn one after another, so a placeholder that a default brings
into the address is replaced as well if its variable comes later. The address is compared with the
one in which all placeholders give way at once, which does not depend on the order of the variables.
-/

namespace RpcForge

open Text

namespace Server

/-! ### Placeholders -/

private theorem toList_placeholder (name : String) :
    (placeholder name).toList = '{' :: (name.toList ++ ['}']) := by
  rw [placeholder, String.toList_append, String.toList_append]
  rfl

private theorem toList_placeholder_ne_nil (name : String) : (placeholder name).toList ≠ [] := by
  rw [toList_placeholder]
  exact List.cons_ne_nil _ _

private theorem placeholder_injective : Function.Injective placeholder := by
  intro name other h
  have hc := congrArg String.toList h
  rw [toList_placeholder, toList_placeholder] at hc
  exact String.toList_inj.mp (List.append_cancel_right (List.cons.inj hc).2)

/-- A name without braces. -/
def IsPlain (name : String) : Prop :=
  '{' ∉ name.toList ∧ '}' ∉ name.toList

instance (name : String) : Decidable (IsPlain name) :=
  inferInstanceAs (Decidable (_ ∧ _))

/-- Placeholders of names without braces never overlap. -/
private theorem apart_placeholder {name other : String} (hn : IsPlain name) (ho : IsPlain other) :
    Apart (placeholder name).toList (placeholder other).toList := by
  intro s hs hne back hp
  rw [toList_placeholder] at hs hp
  obtain rfl | hs := List.suffix_cons_iff.mp hs
  · obtain ⟨rest, hr⟩ := (List.cons_prefix_cons.mp hp).2
    have he : other.toList ++ '}' :: rest = name.toList ++ '}' :: back := by simpa using hr
    obtain rfl := String.toList_inj.mp (eq_of_append_cons_eq ho.2 hn.2 he)
    exact ⟨(toList_placeholder other).symm, rfl⟩
  · have hb : '{' ∉ name.toList ++ ['}'] := by simpa using hn.1
    exact absurd ⟨s, hs, hne, hp⟩ (not_beginsWithin_of_notMem hb back)

/-! ### The address in which all placeholders gave way at once -/

/-- The variables under their names, in order. -/
def declared (server : Server) : Entries ServerVariable :=
  server.urlVariables.getD []

/-- The server with other variables. -/
def declaring (server : Server) (vs : Entries ServerVariable) : Server :=
  { server with urlVariables := some vs }

/-- The placeholders of variables, each with the default that takes its place. -/
def substitution (vs : Entries ServerVariable) : List (List Char × List Char) :=
  vs.map fun entry ↦ ((placeholder entry.1).toList, entry.2.default.toList)

/-- The address with the default of every variable in place of its placeholder, and all else as it
is. -/
def IsSubstituted (server : Server) (url : String) : Prop :=
  Substituted (substitution server.declared) server.url.toList url.toList

/-- In no text do placeholders of the variables overlap. -/
def PlaceholdersApart (server : Server) : Prop :=
  ∀ name ∈ Entries.keys server.declared, ∀ other ∈ Entries.keys server.declared,
    Apart (placeholder name).toList (placeholder other).toList

private theorem PlaceholdersApart.of_plain {server : Server}
    (h : ∀ name ∈ Entries.keys server.declared, IsPlain name) : server.PlaceholdersApart :=
  fun name hn other ho ↦ apart_placeholder (h name hn) (h other ho)

private theorem separate_substitution {server : Server}
    (distinct : (Entries.keys server.declared).Nodup) (apart : server.PlaceholdersApart) :
    Separate (substitution server.declared) where
  nodup := by
    have hk : (substitution server.declared).map Prod.fst =
        (Entries.keys server.declared).map fun name ↦ (placeholder name).toList := by
      rw [substitution, Entries.keys, List.map_map, List.map_map]
      rfl
    rw [hk]
    exact distinct.map fun name other h ↦ placeholder_injective (String.toList_inj.mp h)
  ne_nil pair hp := by
    obtain ⟨entry, -, rfl⟩ := List.mem_map.mp hp
    exact toList_placeholder_ne_nil entry.1
  apart pair hp other ho := by
    obtain ⟨entry, he, rfl⟩ := List.mem_map.mp hp
    obtain ⟨entry', he', rfl⟩ := List.mem_map.mp ho
    exact apart entry.1 (List.mem_map_of_mem he) entry'.1 (List.mem_map_of_mem he')

private theorem toList_resolveUrl (server : Server) :
    server.resolveUrl.toList = replacedInTurn (substitution server.declared) server.url.toList := by
  rw [resolveUrl, declared]
  generalize server.urlVariables.getD [] = vs, server.url = url
  induction vs generalizing url with
  | nil => rfl
  | cons entry vs ih =>
    have he : (placeholder entry.1).isEmpty = false := by
      rw [Bool.eq_false_iff, ne_eq, String.isEmpty_iff, ← String.toList_eq_nil_iff]
      exact toList_placeholder_ne_nil entry.1
    rw [List.foldl_cons, ih, toList_replace he]
    rfl

/-- There is exactly one address in which all placeholders gave way at once. -/
private theorem existsUnique_isSubstituted {server : Server}
    (hs : Separate (substitution server.declared)) : ∃! url, server.IsSubstituted url := by
  obtain ⟨cs, hc⟩ := exists_substituted hs.ne_nil server.url.toList
  have hi : server.IsSubstituted (String.ofList cs) := by
    rw [IsSubstituted, String.toList_ofList]
    exact hc
  exact ⟨_, hi, fun url hu ↦ String.toList_inj.mp (hu.unique hs hi)⟩

private theorem concat_prefix_substitution_iff {vs : Entries ServerVariable}
    {front : List (List Char × List Char)} {old new : List Char} :
    front ++ [(old, new)] <+: substitution vs ↔
      ∃ before name v, before ++ [(name, v)] <+: vs ∧ substitution before = front ∧
        (placeholder name).toList = old ∧ v.default.toList = new := by
  constructor
  · intro h
    obtain ⟨all, hp, he⟩ := List.prefix_map_iff.mp h
    obtain ⟨before, last, rfl, hb, hl⟩ := List.append_eq_map_iff.mp he
    obtain ⟨⟨name, v⟩, rfl, hv⟩ := List.map_eq_singleton_iff.mp hl
    obtain ⟨ho, hn⟩ := Prod.mk.inj hv
    exact ⟨before, name, v, hp, hb, ho, hn⟩
  · rintro ⟨before, name, v, hp, rfl, rfl, rfl⟩
    have hm := hp.map fun entry : String × ServerVariable ↦
      ((placeholder entry.1).toList, entry.2.default.toList)
    rw [List.map_append] at hm
    exact hm

/-- After each turn the address is the one in which the placeholders so far gave way at once,
exactly if at its turn the placeholder of a variable occurs as often as at first, or stands for
itself. -/
private theorem isSubstituted_turns_iff {server : Server}
    (hs : Separate (substitution server.declared)) :
    (∀ front, front <+: server.declared →
        (server.declaring front).IsSubstituted (server.declaring front).resolveUrl) ↔
      ∀ front name v, front ++ [(name, v)] <+: server.declared →
        occurrences (placeholder name).toList (server.declaring front).resolveUrl.toList =
            occurrences (placeholder name).toList server.url.toList ∨
          v.default = placeholder name := by
  have hurl : ∀ front, (server.declaring front).resolveUrl.toList =
      replacedInTurn (substitution front) server.url.toList :=
    fun front ↦ toList_resolveUrl (server.declaring front)
  have hturns := substituted_replacedInTurn_iff hs server.url.toList
  constructor
  · intro h front name v hp
    have hall : ∀ pairs, pairs <+: substitution server.declared →
        Substituted pairs server.url.toList (replacedInTurn pairs server.url.toList) := by
      intro pairs hpre
      obtain ⟨before, hb, rfl⟩ := List.prefix_map_iff.mp hpre
      have hi := h before hb
      rw [IsSubstituted, hurl] at hi
      exact hi
    rw [hurl, ← String.toList_inj]
    exact hturns.mp hall _ _ _
      (concat_prefix_substitution_iff.mpr ⟨front, name, v, hp, rfl, rfl, rfl⟩)
  · intro h front hf
    have hall : ∀ pairs old new, pairs ++ [(old, new)] <+: substitution server.declared →
        occurrences old (replacedInTurn pairs server.url.toList) =
          occurrences old server.url.toList ∨ new = old := by
      intro pairs old new hpre
      obtain ⟨before, name, v, hb, rfl, rfl, rfl⟩ := concat_prefix_substitution_iff.mp hpre
      rw [← hurl, String.toList_inj]
      exact h before name v hb
    rw [IsSubstituted, hurl]
    exact hturns.mpr hall _ (hf.map _)

/-! ### Braces that are not nested -/

/-- Whether a character is none of the two braces. -/
def noBrace (c : Char) : Bool :=
  c != '{' && c != '}'

/-- Between two opening braces there is a closing one. -/
def unnested : List Char → Bool
  | [] => true
  | c :: cs => (c != '{' || (cs.dropWhile noBrace).head? != some '{') && unnested cs

private theorem unnested_of_append {front back : List Char} (h : unnested (front ++ back) = true) :
    unnested back = true := by
  induction front with
  | nil => exact h
  | cons c front ih =>
    rw [List.cons_append, unnested, Bool.and_eq_true] at h
    exact ih h.2

/-- Placeholders of plain names, with texts to take their place that open no placeholder. -/
structure Unbraced (pairs : List (List Char × List Char)) : Prop where
  placeholders : ∀ pair ∈ pairs, ∃ name, IsPlain name ∧ pair.1 = (placeholder name).toList
  defaults : ∀ pair ∈ pairs, '{' ∉ pair.2

section

variable {pairs : List (List Char × List Char)} {front cs ds : List Char} {name : String}

private theorem Unbraced.sublist {others : List (List Char × List Char)} (hp : Unbraced pairs)
    (hs : others.Sublist pairs) : Unbraced others where
  placeholders pair hm := hp.placeholders pair (hs.subset hm)
  defaults pair hm := hp.defaults pair (hs.subset hm)

private theorem Unbraced.ne_nil (hp : Unbraced pairs) : ∀ pair ∈ pairs, pair.1 ≠ [] := by
  intro pair hpair
  obtain ⟨name, -, he⟩ := hp.placeholders pair hpair
  rw [he]
  exact toList_placeholder_ne_nil name

private theorem Unbraced.substituted_of_append (hp : Unbraced pairs) (hf : '{' ∉ front)
    (h : Substituted pairs (front ++ cs) ds) :
    ∃ es, ds = front ++ es ∧ Substituted pairs cs es := by
  refine h.of_append fun pair hpair ↦ ?_
  obtain ⟨name, -, he⟩ := hp.placeholders pair hpair
  rw [he, toList_placeholder]
  exact not_beginsWithin_of_notMem hf cs

/-- Where the next brace is no opening one, a name and the closing brace after it come next either
both before and after all substitutions or neither. -/
private theorem Unbraced.prefix_iff (hp : Unbraced pairs) (hn : IsPlain name)
    (hc : (cs.dropWhile noBrace).head? ≠ some '{') (h : Substituted pairs cs ds) :
    name.toList ++ ['}'] <+: ds ↔ name.toList ++ ['}'] <+: cs := by
  constructor
  · rintro ⟨rest, hr⟩
    -- nothing changes up to the next brace, and a closing one stays as well
    have hw : ∀ c ∈ cs.takeWhile noBrace, c ≠ '{' ∧ c ≠ '}' := by
      intro c hm
      simpa [noBrace] using List.mem_takeWhile_imp hm
    have ht := List.takeWhile_append_dropWhile (p := noBrace) (l := cs)
    rw [← ht] at h ⊢
    obtain ⟨es, rfl, he⟩ := hp.substituted_of_append (fun hm ↦ (hw _ hm).1 rfl) h
    cases hd : cs.dropWhile noBrace with
    | nil =>
      rw [hd] at he
      have hm : '}' ∈ cs.takeWhile noBrace ++ es := hr ▸ by simp
      rw [he.eq_nil hp.ne_nil, List.append_nil] at hm
      exact absurd rfl (hw _ hm).2
    | cons c back =>
      have hb := List.head?_dropWhile_not noBrace cs
      rw [hd, List.head?_cons] at hb hc
      simp only [noBrace, Bool.and_eq_false_iff, bne_eq_false_iff_eq] at hb
      obtain rfl := hb.resolve_left fun hopen ↦ hc (congrArg some hopen)
      rw [hd] at he
      have hclose : '{' ∉ ['}'] := by decide
      obtain ⟨es, rfl, -⟩ := hp.substituted_of_append hclose he
      have hname : name.toList = cs.takeWhile noBrace :=
        eq_of_append_cons_eq hn.2 (fun hm ↦ (hw _ hm).2 rfl) (by simpa using hr)
      rw [← hname]
      exact ⟨back, by simp⟩
  · rintro ⟨rest, rfl⟩
    have hopen : '{' ∉ name.toList ++ ['}'] := by simpa using hn.1
    obtain ⟨es, rfl, -⟩ := hp.substituted_of_append hopen h
    exact List.prefix_append _ _

/-- A placeholder comes up nowhere that it did not stand at first. -/
private theorem Unbraced.occurrences_eq (hp : Unbraced pairs) (hn : IsPlain name)
    (hb : ∀ pair ∈ pairs, ∀ back, ¬BeginsWithin (placeholder name).toList pair.1 back)
    (hc : unnested cs = true) (h : Substituted pairs cs ds) :
    occurrences (placeholder name).toList ds = occurrences (placeholder name).toList cs := by
  rw [toList_placeholder] at hb ⊢
  induction h with
  | nil => rfl
  | part hpair _ ih =>
    rw [occurrences_append (hb _ hpair _), ← ih (unnested_of_append hc)]
    exact occurrences_append (not_beginsWithin_of_notMem (hp.defaults _ hpair) _)
  | @char c cs ds _ h ih =>
    rw [unnested, Bool.and_eq_true] at hc
    have hi : ('{' :: (name.toList ++ ['}'])).isPrefixOf (c :: ds) =
        ('{' :: (name.toList ++ ['}'])).isPrefixOf (c :: cs) := by
      rw [Bool.eq_iff_iff, List.isPrefixOf_iff_prefix, List.isPrefixOf_iff_prefix,
        List.cons_prefix_cons, List.cons_prefix_cons]
      refine and_congr_right fun hbrace ↦ hp.prefix_iff hn ?_ h
      simpa [← hbrace] using hc.1
    rw [occurrences, occurrences, hi, ih hc.2]

/-- Placeholders that give way one after another give way at once if none of them comes up. -/
private theorem Unbraced.substituted_replacedInTurn (hp : Unbraced pairs) (hs : Separate pairs)
    (hc : unnested cs = true) : Substituted pairs cs (replacedInTurn pairs cs) := by
  -- the induction takes the last placeholder, whose turn comes after that of all others
  induction pairs using List.reverseRecOn with
  | nil => exact substituted_nil cs
  | append_singleton front pair ih =>
    obtain ⟨old, new⟩ := pair
    have hsub := List.sublist_append_left front [(old, new)]
    have hlast : (old, new) ∈ front ++ [(old, new)] := List.mem_concat_self
    have hi := ih (hp.sublist hsub) (hs.sublist hsub)
    rw [replacedInTurn_concat, hi.replaceFrom_iff hs]
    obtain ⟨name, hn, he⟩ := hp.placeholders _ hlast
    obtain rfl : old = _ := he
    refine .inl ((hp.sublist hsub).occurrences_eq hn (fun pair hm ↦ ?_) hc hi)
    exact (hs.apart pair (hsub.subset hm) _ hlast).not_beginsWithin (hs.ne_last hm).symm

end

/-- Names have no braces, no default opens one, and the braces of the address are not nested. -/
structure Unnested (server : Server) : Prop where
  names : ∀ name ∈ Entries.keys server.declared, IsPlain name
  defaults : ∀ entry ∈ server.declared, '{' ∉ entry.2.default.toList
  address : unnested server.url.toList = true

private theorem Unnested.unbraced {server : Server} (h : server.Unnested) :
    Unbraced (substitution server.declared) where
  placeholders pair hp := by
    obtain ⟨entry, hm, rfl⟩ := List.mem_map.mp hp
    exact ⟨entry.1, h.names entry.1 (List.mem_map_of_mem hm), rfl⟩
  defaults pair hp := by
    obtain ⟨entry, hm, rfl⟩ := List.mem_map.mp hp
    exact h.defaults entry hm

private theorem Unnested.isSubstituted {server : Server} (h : server.Unnested)
    (distinct : (Entries.keys server.declared).Nodup) : server.IsSubstituted server.resolveUrl := by
  have hs := separate_substitution distinct (.of_plain h.names)
  rw [IsSubstituted, toList_resolveUrl]
  exact h.unbraced.substituted_replacedInTurn hs h.address

/-- Where no placeholder comes up on the way, the variables may be declared in any order. -/
private theorem Unnested.isSubstituted_of_perm {server : Server} (h : server.Unnested)
    (distinct : (Entries.keys server.declared).Nodup) {vs : Entries ServerVariable}
    (hv : vs.Perm server.declared) : server.IsSubstituted (server.declaring vs).resolveUrl := by
  have hu : (server.declaring vs).Unnested :=
    ⟨fun name hm ↦ h.names name ((hv.map Prod.fst).mem_iff.mp hm),
      fun entry hm ↦ h.defaults entry (hv.mem_iff.mp hm), h.address⟩
  have hi := hu.isSubstituted ((hv.map Prod.fst).nodup_iff.mpr distinct)
  exact Substituted.of_mem_iff hi fun pair ↦ (hv.map _).mem_iff

/-- Provided that the placeholders of its variables never overlap, a server has exactly one address
in which all placeholders gave way at once. The variables, which take their turn in order, come to
that address after each turn exactly if at the turn of a variable its placeholder occurs as often as
at first, or the default is the placeholder itself. If names have no braces, no default opens one
and the braces of the address are not nested, they come to it in any order. -/
theorem resolveUrl_isSubstituted_iff (server : Server)
    (distinct : (Entries.keys server.declared).Nodup) (apart : server.PlaceholdersApart) :
    (∃! url, server.IsSubstituted url) ∧
      ((∀ front, front <+: server.declared →
          (server.declaring front).IsSubstituted (server.declaring front).resolveUrl) ↔
        ∀ front name v, front ++ [(name, v)] <+: server.declared →
          occurrences (placeholder name).toList (server.declaring front).resolveUrl.toList =
              occurrences (placeholder name).toList server.url.toList ∨
            v.default = placeholder name) ∧
      (server.Unnested → ∀ vs : Entries ServerVariable, vs.Perm server.declared →
        server.IsSubstituted (server.declaring vs).resolveUrl) := by
  have hs := separate_substitution distinct apart
  exact ⟨existsUnique_isSubstituted hs, isSubstituted_turns_iff hs,
    fun h vs hv ↦ h.isSubstituted_of_perm distinct hv⟩

/-- A server with a variable in the name of its host and one for its port. -/
def staged : Server where
  name := "main"
  url := "https://\x7benv\x7d.example.com:\x7bport\x7d/rpc"
  urlVariables := some [("env", { default := "api" }), ("port", { default := "8443" })]

/-- Two variables with plain defaults may be declared in either order. -/
theorem resolveUrl_isSubstituted_staged :
    (Entries.keys staged.declared).Nodup ∧ staged.PlaceholdersApart ∧ staged.Unnested ∧
      staged.IsSubstituted "https://api.example.com:8443/rpc" ∧
      (staged.declaring staged.declared.reverse).resolveUrl =
        "https://api.example.com:8443/rpc" := by
  have hd : (Entries.keys staged.declared).Nodup := by decide
  have hp : ∀ name ∈ Entries.keys staged.declared, IsPlain name := by decide
  have hu : staged.Unnested := ⟨hp, by decide, by decide⟩
  have hr : (staged.declaring staged.declared.reverse).resolveUrl =
      "https://api.example.com:8443/rpc" := by decide +kernel
  have hi := (resolveUrl_isSubstituted_iff staged hd (.of_plain hp)).2.2 hu _
    (List.reverse_perm _)
  rw [hr] at hi
  exact ⟨hd, .of_plain hp, hu, hi, hr⟩

/-- A server where a default is the placeholder of a later variable. -/
def crossed : Server where
  name := "main"
  url := "http://\x7bhost\x7d"
  urlVariables := some [("host", { default := "\x7bname\x7d" }), ("name", { default := "x" })]

/-- A placeholder that a default brings into the address is replaced as well by a variable that
comes later, and is not by one that comes earlier. -/
theorem exists_resolveUrl_not_isSubstituted :
    ∃ server : Server, server.check = .pass ∧ (Entries.keys server.declared).Nodup ∧
      server.PlaceholdersApart ∧ server.IsSubstituted "http://\x7bname\x7d" ∧
      server.resolveUrl = "http://x" ∧ ¬server.IsSubstituted "http://x" ∧
      (server.declaring server.declared.reverse).resolveUrl = "http://\x7bname\x7d" := by
  have hd : (Entries.keys crossed.declared).Nodup := by decide
  have ha : crossed.PlaceholdersApart := .of_plain (by decide)
  have hi : crossed.IsSubstituted "http://\x7bname\x7d" := by
    have hn : ∀ pair ∈ substitution crossed.declared,
        ¬BeginsWithin pair.1 "http://".toList (placeholder "host").toList := by
      intro pair hp
      obtain ⟨entry, -, rfl⟩ := List.mem_map.mp hp
      rw [toList_placeholder]
      exact not_beginsWithin_of_notMem (by decide) _
    have hpart : Substituted (substitution crossed.declared) _ _ := .part (.head _) .nil
    rw [List.append_nil, List.append_nil] at hpart
    exact hpart.append hn
  refine ⟨crossed, rfl, hd, ha, hi, by decide +kernel, fun h ↦ ?_, by decide +kernel⟩
  have he := (existsUnique_isSubstituted (separate_substitution hd ha)).unique hi h
  exact absurd he (by decide)

end Server

end RpcForge
