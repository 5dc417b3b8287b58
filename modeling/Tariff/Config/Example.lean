import Tariff.Text.Lines
/-
  Tariff.Config.Example — the configuration that an operator starts from.
-/

namespace Tariff.Config

/-- The lines of the file; the last one is empty. -/
def exampleLines : List String :=
  ["# Example configuration file for pricegate",
   "#",
   "# Copy to the platform config directory (`pricegate setup` does this for you)",
   "# and point `api.base_url` at the admin endpoint of your Billing API.",
   "",
   "api:",
   "  base_url: \"https://billing.example.com/admin\"",
   "  # Sent as `Authorization: Bearer <api_key>`. Optional.",
   "  api_key: \"sk_test_replace_me\"",
   "",
   "# How long reference data stays cached within one run, in seconds.",
   "cache:",
   "  currencies_ttl_secs: 300",
   "  amounts_ttl_secs: 30",
   ""]

/-- The file. -/
def exampleText : String := Text.joinLines exampleLines

end Tariff.Config
