import Mathlib.Data.List.Perm.Basic
import Zimr.Spec.Website

/-!
# What `website_find` is for
-/

namespace Zimr

/-- The text before the first `/`. -/
def hostPort (url : List UInt8) : List UInt8 := url.takeWhile (· ≠ 47)

/-- The rest. -/
def urlPath (url : List UInt8) : List UInt8 := url.dropWhile (· ≠ 47)

/-- The part that starts at the first `:`. -/
def fromColon (s : List UInt8) : List UInt8 := s.dropWhile (· ≠ 58)

/-- Protocol, address and path are those of the website. -/
def Website.Suits (w : Website) (url protocol ip : List UInt8) : Prop :=
  protocol <+: w.fullUrl ∧ w.ip = ip ∧ urlPath w.url <+: urlPath url

/-- The website is one for this request: host and port are the same, or the host is `*` and
the port is the same. -/
def Website.Matches (w : Website) (url protocol ip : List UInt8) : Prop :=
  w.Suits url protocol ip ∧
    (w.wildcard = false ∧ hostPort w.url = hostPort url ∨
      hostPort w.url = 42 :: fromColon (hostPort url))

/-- A longer path counts more, then a host that is no `*`. -/
def Website.rank (w : Website) : ℕ := 2 * (urlPath w.url).length + (if w.wildcard then 0 else 1)

/-- The match with the longest path, one without `*` winning a tie. -/
def IsBest (sites : List Website) (url protocol ip : List UInt8) (w : Website) : Prop :=
  w ∈ sites ∧ w.Matches url protocol ip ∧
    ∀ m ∈ sites, m.Matches url protocol ip → m.rank ≤ w.rank

/-- The lookup finds the best match, if there is one, in whatever order the websites were
registered. -/
def FindsBest (sites : List Website) (url protocol ip : List UInt8) : Prop :=
  ∀ sites', sites'.Perm sites →
    (websiteFind sites' url protocol ip = none ↔ ∀ w ∈ sites, ¬w.Matches url protocol ip) ∧
    (∀ w, websiteFind sites' url protocol ip = some w → IsBest sites url protocol ip w) ∧
    websiteFind sites' url protocol ip = websiteFind sites url protocol ip

/-- The host of the request has no port, but a `:` stands in its path, and what the website has
after its `*` stands there too. -/
def Website.Strays (w : Website) (url protocol ip : List UInt8) : Prop :=
  w.Suits url protocol ip ∧ (58 : UInt8) ∉ hostPort url ∧
    ∃ rest, rest ≠ [] ∧ hostPort w.url = 42 :: rest ∧ rest <+: fromColon (urlPath url)

/-- Every website that strays is outranked by a match, and no two matches are best (they would
differ in the protocol only). -/
def Unmistakable (sites : List Website) (url protocol ip : List UInt8) : Prop :=
  (∀ w ∈ sites, w.Strays url protocol ip →
      ∃ m ∈ sites, m.Matches url protocol ip ∧ w.rank < m.rank) ∧
    ∀ w m, IsBest sites url protocol ip w → IsBest sites url protocol ip m → w = m

end Zimr
