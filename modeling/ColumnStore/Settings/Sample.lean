/-!
# A Sample of a Configuration

The text of a configuration file that says what is usual anyway, with a remark
on every setting.

## Main definitions

* `Configuration.sampleLines`: The lines of the file.
* `Configuration.sample`: The file.
-/

namespace ColumnStore

namespace Configuration

/-- The lines of a configuration file with the usual settings. -/
def sampleLines : List String := [
  "# clickhouse-orm configuration",
  "#",
  "# Environment variables override these settings:",
  "# - CLICKHOUSE_ORM_HOST",
  "# - CLICKHOUSE_ORM_PORT",
  "# - CLICKHOUSE_ORM_DATABASE",
  "# - CLICKHOUSE_ORM_USER",
  "# - CLICKHOUSE_ORM_PASSWORD",
  "# - CLICKHOUSE_ORM_TIMEOUT",
  "# - CLICKHOUSE_ORM_VERIFY_SSL",
  "# - CLICKHOUSE_ORM_SECURE",
  "# - CLICKHOUSE_ORM_MAX_CONNECTIONS",
  "# - CLICKHOUSE_ORM_POOL_TIMEOUT",
  "# - CLICKHOUSE_ORM_READONLY",
  "# - CLICKHOUSE_ORM_LOG_STATEMENTS",
  "# - CLICKHOUSE_ORM_LOG_LEVEL",
  "# - CLICKHOUSE_ORM_LOG_FORMAT",
  "",
  "[connection]",
  "# Server host and HTTP port",
  "host = \"localhost\"",
  "port = 8123",
  "",
  "# Database queries run against",
  "database = \"default\"",
  "",
  "# Credentials (basic auth); leave unset for the default user",
  "# user = \"default\"",
  "# password = \"\"",
  "",
  "# Request timeout in seconds",
  "timeout_secs = 60",
  "",
  "# Use https, and whether to verify the server certificate",
  "secure = false",
  "verify_ssl = true",
  "",
  "# Maximum concurrent requests per connection handle",
  "max_connections = 10",
  "",
  "# How long to wait for a free connection (ms)",
  "pool_timeout_ms = 30000",
  "",
  "# Log every statement at info level",
  "log_statements = false",
  "",
  "# Refuse inserts, deletes and DDL",
  "readonly = false",
  "",
  "[logging]",
  "# Log level: trace, debug, info, warn, error",
  "level = \"info\"",
  "",
  "# Log format: pretty (for development) or json (for production)",
  "format = \"pretty\"",
  "",
  "# Optional log file path",
  "# file = \"/var/log/clickhouse-orm.log\""]

/-- A configuration file with the usual settings. -/
def sample : String :=
  String.join (sampleLines.map (· ++ "\n"))

end Configuration

end ColumnStore
